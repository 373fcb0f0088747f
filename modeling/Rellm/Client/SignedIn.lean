import Rellm.Client.Accounts
import Rellm.Client.Links

/-!
# What refreshes do to signed-in accounts

Every step the user takes leaves the accounts as the user left them. The result of a refresh does so
exactly if the account that it carries is still current.
-/

namespace Rellm.Client.AccountsPanel

open Foundation

theorem server_eq_of_id_eq {a b : RellmAccount} (h : rellmAccountId a = rellmAccountId b) :
    a.server = b.server := by
  have hkey := congrArg String.toList h
  simp only [rellmAccountId, String.toList_append] at hkey
  have hbar : "|".toList = ['|'] := by decide +kernel
  rw [hbar, List.append_assoc, List.append_assoc] at hkey
  obtain ⟨hname, _⟩ := split_unique a.server.no_bar b.server.no_bar hkey
  have hname : a.server.name = b.server.name := String.toList_inj.mp hname
  cases hserver : a.server
  cases hserver' : b.server
  rw [hserver, hserver'] at hname
  simp only at hname
  subst hname
  rfl

section

variable {accounts : List RellmAccount} {a b : RellmAccount} {id : String}

theorem accountOf_eq_find : accountOf accounts id =
    accounts.find? fun a => decide (rellmAccountId a = id) := by
  rw [accountOf, List.head?_filter]

theorem accountOf_eq_some (h : accountOf accounts id = some a) :
    a ∈ accounts ∧ rellmAccountId a = id := by
  rw [accountOf_eq_find] at h
  exact ⟨List.mem_of_find?_eq_some h, by simpa using List.find?_some h⟩

theorem accountOf_isSome (h : a ∈ accounts) : ∃ b, accountOf accounts (rellmAccountId a) = some b := by
  rw [accountOf_eq_find]
  cases hfind : accounts.find? fun b => decide (rellmAccountId b = rellmAccountId a) with
  | none => exact absurd (List.find?_eq_none.mp hfind a h) (by simp)
  | some b => exact ⟨b, rfl⟩

/-- A change of every account that keeps its identifier is a change of the account with it. -/
theorem accountOf_map {f : RellmAccount → RellmAccount}
    (hf : ∀ a, rellmAccountId (f a) = rellmAccountId a) :
    accountOf (accounts.map f) id = (accountOf accounts id).map f := by
  rw [accountOf_eq_find, accountOf_eq_find, List.find?_map]
  congr 2
  funext a
  simp [hf]

theorem NoNewer.refl (a : RellmAccount) : NoNewer a a := ⟨le_rfl, le_rfl⟩

theorem TokensKept.refl (accounts : List RellmAccount) : TokensKept accounts accounts := by
  intro id old new hold hnew
  rw [hold, Option.some.injEq] at hnew
  exact hnew ▸ NoNewer.refl _

/-- A change that keeps identifiers and tokens keeps the tokens. -/
theorem tokensKept_map {f : RellmAccount → RellmAccount}
    (hf : ∀ a, rellmAccountId (f a) = rellmAccountId a)
    (htokens : ∀ a, (f a).accessToken = a.accessToken ∧ (f a).refreshToken = a.refreshToken) :
    TokensKept accounts (accounts.map f) := by
  intro id old new hold hnew
  rw [accountOf_map hf, hold, Option.map_some, Option.some.injEq] at hnew
  rw [← hnew, NoNewer, (htokens old).1, (htokens old).2]
  exact NoNewer.refl old

/-- A change that enables nothing keeps to one enabled account. -/
theorem OneEnabled.map (h : OneEnabled accounts) {f : RellmAccount → RellmAccount}
    (hf : ∀ a, rellmAccountId (f a) = rellmAccountId a)
    (henabled : ∀ a, (f a).enabled = true → a.enabled = true) : OneEnabled (accounts.map f) := by
  intro x hx y hy hxe hye hserver
  obtain ⟨a, ha, rfl⟩ := List.mem_map.mp hx
  obtain ⟨b, hb, rfl⟩ := List.mem_map.mp hy
  rw [server_eq_of_id_eq (hf a), server_eq_of_id_eq (hf b)] at hserver
  rw [hf, hf]
  exact h a ha b hb (henabled a hxe) (henabled b hye) hserver

/-- What is stored of an account that is added or updated. -/
theorem upsert_spec (a : RellmAccount) (accounts : List RellmAccount) :
    ∃ sortOrder, (∀ b, b ∈ upsertRellmAccount a accounts ↔
        b = { a with sortOrder := sortOrder } ∨
          b ∈ accounts ∧ rellmAccountId b ≠ rellmAccountId a) ∧
      ∀ id, accountOf (upsertRellmAccount a accounts) id =
        if id = rellmAccountId a then some { a with sortOrder := sortOrder }
        else accountOf accounts id := by
  unfold upsertRellmAccount
  cases hexisting : accountOf accounts (rellmAccountId a) with
  | none =>
    refine ⟨a.sortOrder, fun b => ?_, fun id => ?_⟩
    · rw [List.mem_cons]
      refine or_congr_right (iff_self_and.mpr fun hb hsame => ?_)
      obtain ⟨c, hc⟩ := accountOf_isSome hb
      rw [hsame, hexisting] at hc
      cases hc
    · rw [accountOf_eq_find, List.find?_cons, accountOf_eq_find]
      split
      · rename_i hid
        rw [if_pos (of_decide_eq_true hid).symm]
      · rename_i hid
        rw [if_neg (fun heq => of_decide_eq_false hid heq.symm)]
  | some existing =>
    obtain ⟨hmem, hid⟩ := accountOf_eq_some hexisting
    refine ⟨existing.sortOrder, fun b => ?_, fun id => ?_⟩
    · rw [List.mem_map]
      constructor
      · rintro ⟨c, hc, rfl⟩
        split
        · exact Or.inl rfl
        · rename_i hne
          exact Or.inr ⟨hc, hne⟩
      · rintro (rfl | ⟨hb, hne⟩)
        · exact ⟨existing, hmem, if_pos hid⟩
        · exact ⟨b, hb, if_neg hne⟩
    · rw [accountOf_map]
      · by_cases heq : id = rellmAccountId a
        · rw [if_pos heq, heq, hexisting, Option.map_some, if_pos hid]
        · rw [if_neg heq]
          cases hfound : accountOf accounts id with
          | none => rfl
          | some found =>
            rw [Option.map_some, if_neg (fun hsame => heq ((accountOf_eq_some hfound).2 ▸ hsame))]
      · intro c
        split
        · rename_i hsame
          exact hsame.symm
        · rfl

theorem rellmAccountId_disableOther (keepEnabledId : String) (server : Host) (a : RellmAccount) :
    rellmAccountId (if a.server = server ∧ rellmAccountId a ≠ keepEnabledId then
      { a with enabled := false } else a) = rellmAccountId a := by
  split <;> rfl

/-- An account that is enabled once the others of a server are disabled was enabled and is the one
that is kept or on another server. -/
theorem mem_disableOther {keepEnabledId : String} {server : Host}
    (h : b ∈ disableOtherRellmAccountsOnServer keepEnabledId server accounts) :
    ∃ a ∈ accounts, rellmAccountId b = rellmAccountId a ∧ b.server = a.server ∧
      (b.enabled = true → a.enabled = true ∧
        (a.server = server → rellmAccountId a = keepEnabledId)) := by
  obtain ⟨a, ha, rfl⟩ := List.mem_map.mp h
  refine ⟨a, ha, rellmAccountId_disableOther _ _ a, ?_, ?_⟩
  · split <;> rfl
  · split
    · nofun
    · rename_i hkept
      intro henabled
      refine ⟨henabled, fun hserver => ?_⟩
      by_contra hne
      exact hkept ⟨hserver, hne⟩

/-- Once the others of its server are disabled, an account that was enabled is the only one there. -/
theorem oneEnabled_disableOther {keepEnabledId : String} {server : Host}
    (h : ∀ a ∈ accounts, ∀ b ∈ accounts, a.enabled = true → b.enabled = true →
      a.server = b.server → a.server ≠ server → rellmAccountId a = rellmAccountId b) :
    OneEnabled (disableOtherRellmAccountsOnServer keepEnabledId server accounts) := by
  intro x hx y hy hxe hye hsame
  obtain ⟨a, ha, hid, hserver, hkeep⟩ := mem_disableOther hx
  obtain ⟨b, hb, hid', hserver', hkeep'⟩ := mem_disableOther hy
  rw [hid, hid']
  rw [hserver, hserver'] at hsame
  by_cases hat : a.server = server
  · rw [(hkeep hxe).2 hat, (hkeep' hye).2 (hsame ▸ hat)]
  · exact h a ha b hb (hkeep hxe).1 (hkeep' hye).1 hsame hat

end

/-- The account that a refresh carries. -/
def RefreshTask.account? : RefreshTask → Option RellmAccount
  | .checkingToken account => some account
  | .gettingUser account => some account
  | .done _ (.ok (account, _)) => some account
  | .done _ (.error _) => none

/-- The tokens of an account have been issued. -/
def Issued (issued : Nat) (account : RellmAccount) : Prop :=
  account.accessToken.issue ≤ issued ∧ account.refreshToken.issue ≤ issued

/-- An account is there, or the user removed it. -/
def Known (s : State) (id : String) : Prop :=
  id ∈ s.removed ∨ ∃ a ∈ s.accounts, rellmAccountId a = id

/-- The accounts that are stored or being refreshed have tokens that were issued, and the latter were
stored. -/
structure Recorded (s : State) : Prop where
  accounts : ∀ a ∈ s.accounts, Issued s.issued a
  tasks : ∀ task ∈ s.tasks, ∀ account, task.account? = some account →
    Issued s.issued account ∧ Known s (rellmAccountId account)

section

variable {s : State}

theorem Issued.mono {issued issued' : Nat} {account : RellmAccount} (h : Issued issued account)
    (hle : issued ≤ issued') : Issued issued' account := ⟨h.1.trans hle, h.2.trans hle⟩

theorem refreshPermissions_account {server : RellmServer} {account refreshed : RellmAccount}
    (h : (refreshPermissions server account).account? = some refreshed) : refreshed = account := by
  rw [refreshPermissions] at h
  split at h
  · exact (Option.some.inj h).symm
  · cases h

/-- A refresh that is started carries a copy of an account that is there. -/
theorem Recorded.started (h : Recorded s) {account : RellmAccount} (haccount : account ∈ s.accounts)
    (server : Option RellmServer) :
    Recorded { s with
      tasks := s.tasks ++ (server.map fun server => refreshPermissions server account).toList } where
  accounts := h.accounts
  tasks task htask refreshed hrefreshed := by
    obtain htask | htask := List.mem_append.mp htask
    · exact h.tasks task htask refreshed hrefreshed
    · rw [Option.mem_toList, Option.map_eq_some_iff] at htask
      obtain ⟨server, _, rfl⟩ := htask
      rw [refreshPermissions_account hrefreshed]
      exact ⟨h.accounts account haccount, Or.inr ⟨account, haccount, rfl⟩⟩

/-- A change of the accounts that keeps identifiers and tokens keeps the record. -/
theorem Recorded.map (h : Recorded s) {f : RellmAccount → RellmAccount}
    (hf : ∀ a, rellmAccountId (f a) = rellmAccountId a)
    (htokens : ∀ a, (f a).accessToken = a.accessToken ∧ (f a).refreshToken = a.refreshToken)
    {s' : State} (haccounts : s'.accounts = s.accounts.map f) (htasks : s'.tasks = s.tasks)
    (hremoved : s'.removed = s.removed) (hissued : s'.issued = s.issued) : Recorded s' where
  accounts a ha := by
    rw [haccounts] at ha
    obtain ⟨b, hb, rfl⟩ := List.mem_map.mp ha
    rw [Issued, (htokens b).1, (htokens b).2, hissued]
    exact h.accounts b hb
  tasks task htask account haccount := by
    rw [htasks] at htask
    obtain ⟨hissue, hknown⟩ := h.tasks task htask account haccount
    rw [hissued]
    refine ⟨hissue, ?_⟩
    rw [Known, hremoved, haccounts]
    obtain hremoved | ⟨a, ha, hid⟩ := hknown
    · exact Or.inl hremoved
    · exact Or.inr ⟨f a, List.mem_map_of_mem ha, (hf a).trans hid⟩

/-- An account that is updated with tokens that were issued keeps the record. -/
theorem Recorded.upsert (h : Recorded s) (account : RellmAccount) (issued : Nat)
    (hissued : Issued issued account) (hle : s.issued ≤ issued) (removed : List String)
    (hremoved : ∀ id ∈ s.removed, id ∈ removed ∨ id = rellmAccountId account) :
    Recorded { s with
      accounts := upsertRellmAccount account s.accounts
      removed := removed
      issued := issued } where
  accounts a ha := by
    obtain ⟨sortOrder, hmem, _⟩ := upsert_spec account s.accounts
    obtain rfl | ⟨ha, _⟩ := (hmem a).mp ha
    · exact hissued
    · exact (h.accounts a ha).mono hle
  tasks task htask refreshed hrefreshed := by
    obtain ⟨sortOrder, hmem, _⟩ := upsert_spec account s.accounts
    obtain ⟨hissue, hknown⟩ := h.tasks task htask refreshed hrefreshed
    refine ⟨hissue.mono hle, ?_⟩
    by_cases hid : rellmAccountId refreshed = rellmAccountId account
    · exact Or.inr ⟨_, (hmem _).mpr (Or.inl rfl), hid.symm⟩
    · obtain hgone | ⟨a, ha, hsame⟩ := hknown
      · exact Or.inl ((hremoved _ hgone).resolve_right hid)
      · exact Or.inr ⟨a, (hmem a).mpr (Or.inr ⟨ha, hsame ▸ hid⟩), hsame⟩

theorem rellmAccountId_toggled (id : String) (a : RellmAccount) :
    rellmAccountId (if rellmAccountId a = id then { a with enabled := !a.enabled } else a) =
      rellmAccountId a := by
  split <;> rfl

/-- Another part of the state does not matter to the record. -/
theorem Recorded.congr (h : Recorded s) {s' : State} (haccounts : s'.accounts = s.accounts)
    (htasks : ∀ task ∈ s'.tasks, task ∈ s.tasks) (hremoved : s'.removed = s.removed)
    (hissued : s'.issued = s.issued) : Recorded s' where
  accounts a ha := by
    rw [hissued]
    exact h.accounts a (haccounts ▸ ha)
  tasks task htask account haccount := by
    rw [hissued, Known, hremoved, haccounts]
    exact h.tasks task (htasks task htask) account haccount

theorem Recorded.toggleAccountEnabled (h : Recorded s) (id : String) :
    Recorded (toggleAccountEnabled s id) := by
  have htoggled : Recorded { s with accounts := toggled id s.accounts } :=
    h.map (rellmAccountId_toggled id) (fun a => by split <;> exact ⟨rfl, rfl⟩) rfl rfl rfl rfl
  unfold AccountsPanel.toggleAccountEnabled
  dsimp only
  split
  · rename_i account hfound
    have haccount : account ∈ toggled id s.accounts :=
      (List.mem_filter.mp (List.mem_of_head? hfound)).1
    have hstarted := htoggled.started haccount (rellmServerForHost
      (enableRellmServerFor account.server s.servers) account.server)
    exact hstarted.map (rellmAccountId_disableOther id account.server)
      (fun a => by split <;> exact ⟨rfl, rfl⟩) rfl rfl rfl rfl
  · exact htoggled.congr rfl (fun _ htask => htask) rfl rfl

theorem Recorded.toggleServerEnabled (h : Recorded s) (frontendHost : Host) :
    Recorded (toggleServerEnabled s frontendHost) := by
  unfold AccountsPanel.toggleServerEnabled
  dsimp only
  split
  · refine h.map (f := fun account =>
      if account.server = frontendHost then { account with enabled := false } else account)
      (fun a => by split <;> rfl) (fun a => by split <;> exact ⟨rfl, rfl⟩) rfl rfl rfl rfl
  · exact h.congr rfl (fun _ htask => htask) rfl rfl

theorem Recorded.finishRemoveAccount (h : Recorded s) (id : String) :
    Recorded (finishRemoveAccount s id) where
  accounts a ha := h.accounts a (List.mem_filter.mp ha).1
  tasks task htask account haccount := by
    obtain ⟨hissue, hknown⟩ := h.tasks task htask account haccount
    refine ⟨hissue, ?_⟩
    obtain hremoved | ⟨a, ha, hid⟩ := hknown
    · exact Or.inl (List.mem_cons_of_mem _ hremoved)
    · by_cases hgone : rellmAccountId a = id
      · exact Or.inl (List.mem_cons.mpr (Or.inl (hid.symm.trans hgone)))
      · exact Or.inr ⟨a, List.mem_filter.mpr ⟨ha, decide_eq_true hgone⟩, hid⟩

theorem Recorded.signIn (h : Recorded s) (account : RellmAccount) : Recorded (signIn s account) := by
  have hupsert := h.upsert (signedIn (s.issued + 1) account) (s.issued + 1)
    ⟨le_rfl, le_rfl⟩ (Nat.le_succ _)
    (s.removed.filter fun id => id ≠ rellmAccountId account) fun id hid => by
      by_cases hsame : id = rellmAccountId account
      · exact Or.inr hsame
      · exact Or.inl (List.mem_filter.mpr ⟨hid, decide_eq_true hsame⟩)
  exact hupsert.map (rellmAccountId_disableOther (rellmAccountId account) account.server)
    (fun a => by split <;> exact ⟨rfl, rfl⟩) rfl rfl rfl rfl

theorem Recorded.startRefresh (h : Recorded s) (id : String) : Recorded (startRefresh s id) := by
  unfold AccountsPanel.startRefresh
  split
  · rename_i account hfound
    exact h.started (accountOf_eq_some hfound).1 _
  · exact h

/-- A token is refreshed with ones that were just issued. -/
theorem refreshIfNeeded_eq_ok {now : Int} {issue : Nat}
    {answer : Except GrpcError AccessTokenResponse} {account refreshed : RellmAccount}
    (h : refreshIfNeeded now issue answer account = .ok refreshed)
    (hissued : Issued issue account) :
    Issued issue refreshed ∧ rellmAccountId refreshed = rellmAccountId account := by
  unfold refreshIfNeeded at h
  split at h
  · obtain rfl := Except.ok.inj h
    exact ⟨hissued, rfl⟩
  · split at h
    · split at h
      · obtain rfl := Except.ok.inj h
        refine ⟨⟨le_rfl, ?_⟩, rfl⟩
        rename_i resp _ _ _
        cases hrefresh : resp.refreshToken with
        | none => exact hissued.2
        | some refreshToken => exact le_rfl
      · cases h
    · cases h

/-- A refresh that goes on carries its account on. -/
theorem Recorded.set (h : Recorded s) (index : Nat) {task : RefreshTask} {issued : Nat}
    (hle : s.issued ≤ issued)
    (htask : ∀ account, task.account? = some account →
      Issued issued account ∧ Known s (rellmAccountId account)) :
    Recorded { s with tasks := s.tasks.set index task, issued := issued } where
  accounts a ha := (h.accounts a ha).mono hle
  tasks other hother account haccount := by
    obtain hother | rfl := List.mem_or_eq_of_mem_set hother
    · obtain ⟨hissue, hknown⟩ := h.tasks other hother account haccount
      exact ⟨hissue.mono hle, hknown⟩
    · exact htask account haccount

theorem Recorded.checkToken (h : Recorded s) (task : Nat) (now : Int)
    (answer : Except GrpcError AccessTokenResponse) : Recorded (checkToken s task now answer) := by
  unfold AccountsPanel.checkToken
  split
  · rename_i account hfound
    obtain ⟨hissue, hknown⟩ := h.tasks _ (List.mem_of_getElem? hfound) account rfl
    refine h.set task (Nat.le_succ _) fun refreshed hrefreshed => ?_
    split at hrefreshed
    · rename_i hok
      obtain ⟨hissued, hid⟩ := refreshIfNeeded_eq_ok hok (hissue.mono (Nat.le_succ _))
      obtain rfl := Option.some.inj hrefreshed
      rw [hid]
      exact ⟨hissued, hknown⟩
    · cases hrefreshed
  · exact h

theorem Recorded.gotUser (h : Recorded s) (task : Nat) (answer : Except GrpcError User) :
    Recorded (gotUser s task answer) := by
  unfold AccountsPanel.gotUser
  split
  · rename_i account hfound
    refine h.set task le_rfl fun refreshed hrefreshed => ?_
    cases answer with
    | error error => cases hrefreshed
    | ok user =>
      obtain rfl := Option.some.inj hrefreshed
      exact h.tasks _ (List.mem_of_getElem? hfound) account rfl
  · exact h

theorem rellmAccountId_rejected (accId : String) (a : RellmAccount) :
    rellmAccountId (if rellmAccountId a = accId then
      { a with needsPassword := true, enabled := false } else a) = rellmAccountId a := by
  split <;> rfl

theorem Recorded.gotPermissionsRefresh (h : Recorded s) (task : Nat) :
    Recorded (gotPermissionsRefresh s task) := by
  unfold AccountsPanel.gotPermissionsRefresh
  split
  · rename_i accId result hfound
    have hleft : Recorded { s with tasks := s.tasks.eraseIdx task } :=
      h.congr rfl (fun _ => List.mem_of_mem_eraseIdx) rfl rfl
    unfold applyPermissionsRefreshResult
    split
    · rename_i account user
      obtain ⟨hissued, _⟩ := h.tasks _ (List.mem_of_getElem? hfound) account rfl
      exact hleft.upsert (hydrated account user) s.issued hissued le_rfl s.removed
        fun _ => Or.inl
    · exact hleft.map (rellmAccountId_rejected accId)
        (fun a => by split <;> exact ⟨rfl, rfl⟩) rfl rfl rfl rfl
    · exact hleft
  · exact h

/-- Every step keeps the record. -/
theorem Recorded.step (h : Recorded s) (action : Action) : Recorded (step s action) := by
  cases action with
  | toggleAccountEnabled id => exact h.toggleAccountEnabled id
  | toggleServerEnabled frontendHost => exact h.toggleServerEnabled frontendHost
  | finishRemoveAccount id => exact h.finishRemoveAccount id
  | signIn account => exact h.signIn account
  | startRefresh id => exact h.startRefresh id
  | checkToken task now answer => exact h.checkToken task now answer
  | gotUser task answer => exact h.gotUser task answer
  | gotPermissionsRefresh task => exact h.gotPermissionsRefresh task

/-- A change that keeps identifiers and tokens, after one that kept the tokens. -/
theorem TokensKept.map {accounts accounts' : List RellmAccount} (h : TokensKept accounts accounts')
    {f : RellmAccount → RellmAccount} (hf : ∀ a, rellmAccountId (f a) = rellmAccountId a)
    (htokens : ∀ a, (f a).accessToken = a.accessToken ∧ (f a).refreshToken = a.refreshToken) :
    TokensKept accounts (accounts'.map f) := by
  intro id old new hold hnew
  rw [accountOf_map hf, Option.map_eq_some_iff] at hnew
  obtain ⟨kept, hkept, rfl⟩ := hnew
  rw [NoNewer, (htokens kept).1, (htokens kept).2]
  exact h id old kept hold hkept

/-- An account is added or updated without loss of tokens exactly if it had no newer ones. -/
theorem tokensKept_upsert_iff {accounts : List RellmAccount} {a : RellmAccount} :
    TokensKept accounts (upsertRellmAccount a accounts) ↔
      ∀ old, accountOf accounts (rellmAccountId a) = some old → NoNewer old a := by
  obtain ⟨sortOrder, _, haccountOf⟩ := upsert_spec a accounts
  constructor
  · intro h old hold
    have hnew := h _ old _ hold ((haccountOf _).trans (if_pos rfl))
    exact hnew
  · intro h id old new hold hnew
    rw [haccountOf] at hnew
    split at hnew
    · rename_i hid
      obtain rfl := Option.some.inj hnew
      rw [hid] at hold
      exact h old hold
    · rw [hold] at hnew
      obtain rfl := Option.some.inj hnew
      exact NoNewer.refl _

theorem Lawful.congr (h : Lawful s) {s' : State} (haccounts : s'.accounts = s.accounts)
    (hremoved : s'.removed = s.removed) (hdisabled : s'.disabled = s.disabled) : Lawful s' where
  one_enabled := by
    rw [haccounts]
    exact h.one_enabled
  removed := by
    rw [haccounts, hremoved]
    exact h.removed
  disabled := by
    rw [haccounts, hdisabled]
    exact h.disabled

/-- A change that keeps identifiers and enables nothing keeps the law. -/
theorem Lawful.map (h : Lawful s) {f : RellmAccount → RellmAccount}
    (hf : ∀ a, rellmAccountId (f a) = rellmAccountId a)
    (henabled : ∀ a, (f a).enabled = true → a.enabled = true) {s' : State}
    (haccounts : s'.accounts = s.accounts.map f) (hremoved : s'.removed = s.removed)
    (hdisabled : s'.disabled = s.disabled) : Lawful s' where
  one_enabled := by
    rw [haccounts]
    exact h.one_enabled.map hf henabled
  removed a ha := by
    rw [haccounts] at ha
    obtain ⟨b, hb, rfl⟩ := List.mem_map.mp ha
    rw [hf, hremoved]
    exact h.removed b hb
  disabled a ha hon := by
    rw [haccounts] at ha
    obtain ⟨b, hb, rfl⟩ := List.mem_map.mp ha
    rw [hf, hdisabled]
    exact h.disabled b hb (henabled b hon)

theorem mem_toggled {id : String} {accounts : List RellmAccount} {a : RellmAccount}
    (h : a ∈ toggled id accounts) :
    (∃ b ∈ accounts, rellmAccountId b = rellmAccountId a) ∧
      (rellmAccountId a ≠ id → a ∈ accounts) := by
  obtain ⟨b, hb, rfl⟩ := List.mem_map.mp h
  refine ⟨⟨b, hb, (rellmAccountId_toggled id b).symm⟩, fun hne => ?_⟩
  rw [rellmAccountId_toggled] at hne
  rw [if_neg hne]
  exact hb

theorem tokensKept_toggled (id : String) (accounts : List RellmAccount) :
    TokensKept accounts (toggled id accounts) :=
  tokensKept_map (rellmAccountId_toggled id) fun a => by split <;> exact ⟨rfl, rfl⟩

/-- The account that the user enables is the only one of its server that is. -/
theorem Lawful.toggleAccountEnabled (h : Lawful s) (id : String) :
    Kept s (.toggleAccountEnabled id) := by
  have htoggled : TokensKept s.accounts (toggled id s.accounts) := tokensKept_toggled id _
  suffices hlaw : Lawful (AccountsPanel.toggleAccountEnabled s id) ∧
      TokensKept s.accounts (AccountsPanel.toggleAccountEnabled s id).accounts from ⟨hlaw.1, hlaw.2⟩
  unfold AccountsPanel.toggleAccountEnabled
  dsimp only
  split
  · rename_i account hfound
    obtain ⟨haccount, hid⟩ := List.mem_filter.mp (List.mem_of_head? hfound)
    rw [Bool.and_eq_true, decide_eq_true_eq] at hid
    refine ⟨⟨oneEnabled_disableOther ?_, fun a ha => ?_, fun a ha hon hdisabled => ?_⟩, ?_⟩
    · intro a ha b hb hae hbe hserver hne
      have hother {x : RellmAccount} (hx : x ∈ toggled id s.accounts)
          (hserver : x.server ≠ account.server) : x ∈ s.accounts :=
        (mem_toggled hx).2 fun hsame => hserver (server_eq_of_id_eq (hsame.trans hid.1.symm))
      exact h.one_enabled a (hother ha hne) b (hother hb (hserver ▸ hne)) hae hbe hserver
    · obtain ⟨b, hb, hsame, _⟩ := mem_disableOther ha
      obtain ⟨⟨c, hc, hsame'⟩, _⟩ := mem_toggled hb
      rw [hsame, ← hsame']
      exact h.removed c hc
    · obtain ⟨b, hb, hsame, _, hkeep⟩ := mem_disableOther ha
      obtain ⟨hmem, hne⟩ := List.mem_filter.mp hdisabled
      rw [hsame] at hmem hne
      exact h.disabled b ((mem_toggled hb).2 (of_decide_eq_true hne)) (hkeep hon).1 hmem
    · exact htoggled.map (rellmAccountId_disableOther id account.server)
        fun a => by split <;> exact ⟨rfl, rfl⟩
  · rename_i hnone
    have hoff {a : RellmAccount} (ha : a ∈ toggled id s.accounts) (hon : a.enabled = true) :
        rellmAccountId a ≠ id ∧ a ∈ s.accounts := by
      have hne : rellmAccountId a ≠ id := fun hsame => by
        have hmem : a ∈ (toggled id s.accounts).filter
            fun a => decide (rellmAccountId a = id) && a.enabled :=
          List.mem_filter.mpr ⟨ha, by rw [hon, decide_eq_true hsame]; rfl⟩
        rw [List.head?_eq_none_iff.mp hnone] at hmem
        exact absurd hmem List.not_mem_nil
      exact ⟨hne, (mem_toggled ha).2 hne⟩
    refine ⟨⟨?_, fun a ha => ?_, fun a ha hon hdisabled => ?_⟩, htoggled⟩
    · intro a ha b hb hae hbe hserver
      exact h.one_enabled a (hoff ha hae).2 b (hoff hb hbe).2 hae hbe hserver
    · obtain ⟨⟨b, hb, hsame⟩, _⟩ := mem_toggled ha
      rw [← hsame]
      exact h.removed b hb
    · obtain ⟨hne, hmem⟩ := hoff ha hon
      exact h.disabled a hmem hon ((List.mem_cons.mp hdisabled).resolve_left hne)

/-- A server that the user disables takes its accounts along. -/
theorem Lawful.toggleServerEnabled (h : Lawful s) (frontendHost : Host) :
    Kept s (.toggleServerEnabled frontendHost) := by
  suffices hlaw : Lawful (AccountsPanel.toggleServerEnabled s frontendHost) ∧
      TokensKept s.accounts (AccountsPanel.toggleServerEnabled s frontendHost).accounts from
    ⟨hlaw.1, hlaw.2⟩
  unfold AccountsPanel.toggleServerEnabled
  dsimp only
  split
  · have hid (a : RellmAccount) : rellmAccountId (if a.server = frontendHost then
        { a with enabled := false } else a) = rellmAccountId a := by
      split <;> rfl
    have hkept (a : RellmAccount) (hon : (if a.server = frontendHost then
        { a with enabled := false } else a).enabled = true) :
        a.server ≠ frontendHost ∧ a.enabled = true := by
      split at hon
      · cases hon
      · rename_i hne
        exact ⟨hne, hon⟩
    refine ⟨⟨h.one_enabled.map hid fun a hon => (hkept a hon).2, fun a ha => ?_,
      fun a ha hon hdisabled => ?_⟩, ?_⟩
    · obtain ⟨b, hb, rfl⟩ := List.mem_map.mp ha
      rw [hid]
      exact h.removed b hb
    · obtain ⟨b, hb, rfl⟩ := List.mem_map.mp ha
      obtain ⟨hserver, hon⟩ := hkept b hon
      rw [hid] at hdisabled
      obtain hdisabled | hdisabled := List.mem_append.mp hdisabled
      · obtain ⟨c, hc, hsame⟩ := List.mem_map.mp hdisabled
        have hhost := of_decide_eq_true (List.mem_filter.mp hc).2
        exact hserver ((server_eq_of_id_eq hsame).symm.trans hhost)
      · exact h.disabled b hb hon hdisabled
    · exact tokensKept_map hid fun a => by split <;> exact ⟨rfl, rfl⟩
  · exact ⟨h.congr rfl rfl rfl, TokensKept.refl _⟩

theorem Lawful.finishRemoveAccount (h : Lawful s) (id : String) :
    Kept s (.finishRemoveAccount id) := by
  refine ⟨⟨fun a ha b hb => ?_, fun a ha hremoved => ?_, fun a ha => ?_⟩, ?_⟩
  · exact h.one_enabled a (List.mem_filter.mp ha).1 b (List.mem_filter.mp hb).1
  · obtain ⟨hmem, hne⟩ := List.mem_filter.mp ha
    obtain rfl | hremoved := List.mem_cons.mp hremoved
    · exact absurd rfl (of_decide_eq_true hne)
    · exact h.removed a hmem hremoved
  · exact h.disabled a (List.mem_filter.mp ha).1
  · intro other old new hold hnew
    rw [step, AccountsPanel.finishRemoveAccount, accountOf, List.filter_filter] at hnew
    have hne : other ≠ id := by
      rintro rfl
      obtain ⟨_, hboth⟩ := List.mem_filter.mp (List.mem_of_head? hnew)
      rw [Bool.and_eq_true, decide_eq_true_eq, decide_eq_true_eq] at hboth
      exact hboth.2 hboth.1
    have hsame : (s.accounts.filter fun a =>
        decide (rellmAccountId a = other) && decide (rellmAccountId a ≠ id)) =
        s.accounts.filter fun a => decide (rellmAccountId a = other) := by
      refine List.filter_congr fun a _ => ?_
      by_cases hid : rellmAccountId a = other
      · rw [decide_eq_true hid, decide_eq_true (hid ▸ hne)]
        rfl
      · rw [decide_eq_false hid]
        rfl
    rw [hsame] at hnew
    rw [accountOf, hnew] at hold
    obtain rfl := Option.some.inj hold
    exact NoNewer.refl _

/-- The account that the user signs in to is the only enabled one of its server. -/
theorem Lawful.signIn (h : Lawful s) (hrecorded : Recorded s) (account : RellmAccount) :
    Kept s (.signIn account) := by
  obtain ⟨sortOrder, hmem, _⟩ := upsert_spec (signedIn (s.issued + 1) account) s.accounts
  refine ⟨⟨oneEnabled_disableOther ?_, fun a ha hremoved => ?_, fun a ha hon hdisabled => ?_⟩, ?_⟩
  · intro a ha b hb hae hbe hserver hne
    have hother {x : RellmAccount} (hx : x ∈ upsertRellmAccount (signedIn (s.issued + 1) account)
        s.accounts) (hserver : x.server ≠ account.server) : x ∈ s.accounts := by
      obtain rfl | ⟨hx, _⟩ := (hmem x).mp hx
      · exact absurd rfl hserver
      · exact hx
    exact h.one_enabled a (hother ha hne) b (hother hb (hserver ▸ hne)) hae hbe hserver
  · obtain ⟨b, hb, hsame, _⟩ := mem_disableOther ha
    obtain ⟨hremoved, hne⟩ := List.mem_filter.mp hremoved
    rw [hsame] at hremoved hne
    obtain rfl | ⟨hb, _⟩ := (hmem b).mp hb
    · exact of_decide_eq_true hne rfl
    · exact h.removed b hb hremoved
  · obtain ⟨b, hb, hsame, _, hkeep⟩ := mem_disableOther ha
    obtain ⟨hdisabled, hne⟩ := List.mem_filter.mp hdisabled
    rw [hsame] at hdisabled hne
    obtain rfl | ⟨hb, _⟩ := (hmem b).mp hb
    · exact of_decide_eq_true hne rfl
    · exact h.disabled b hb (hkeep hon).1 hdisabled
  · have hupsert : TokensKept s.accounts
        (upsertRellmAccount (signedIn (s.issued + 1) account) s.accounts) := by
      refine tokensKept_upsert_iff.mpr fun old hold => ?_
      have hissued := hrecorded.accounts old (accountOf_eq_some hold).1
      exact ⟨hissued.1.trans (Nat.le_succ _), hissued.2.trans (Nat.le_succ _)⟩
    exact hupsert.map (rellmAccountId_disableOther (rellmAccountId account) account.server)
      fun a => by split <;> exact ⟨rfl, rfl⟩

/-- A step that leaves the accounts and what the user asked for keeps the law. -/
theorem Lawful.unchanged (h : Lawful s) {action : Action}
    (haccounts : (step s action).accounts = s.accounts)
    (hremoved : (step s action).removed = s.removed)
    (hdisabled : (step s action).disabled = s.disabled) : Kept s action := by
  refine ⟨h.congr haccounts hremoved hdisabled, ?_⟩
  rw [haccounts]
  exact TokensKept.refl _

/-- A refresh that fails enables no account. -/
theorem applyPermissionsRefreshResult_error (accId : String) (error : GrpcError)
    (accounts : List RellmAccount) :
    ∃ f : RellmAccount → RellmAccount,
      applyPermissionsRefreshResult accId (.error error) accounts = accounts.map f ∧
      (∀ a, rellmAccountId (f a) = rellmAccountId a) ∧
      (∀ a, (f a).enabled = true → a.enabled = true) ∧
      ∀ a, (f a).accessToken = a.accessToken ∧ (f a).refreshToken = a.refreshToken := by
  unfold applyPermissionsRefreshResult
  split
  · rename_i heq
    cases heq
  · refine ⟨_, rfl, rellmAccountId_rejected accId, fun a hon => ?_, fun a => ?_⟩
    · split at hon
      · cases hon
      · exact hon
    · split <;> exact ⟨rfl, rfl⟩
  · exact ⟨id, (List.map_id _).symm, fun _ => rfl, fun _ hon => hon, fun _ => ⟨rfl, rfl⟩⟩

/-- An account that is updated is as the user left it exactly if it is current. -/
theorem Lawful.upsert_iff (h : Lawful s) (account : RellmAccount)
    (hknown : Known s (rellmAccountId account)) (s' : State)
    (haccounts : s'.accounts = upsertRellmAccount account s.accounts)
    (hremoved : s'.removed = s.removed) (hdisabled : s'.disabled = s.disabled) :
    Lawful s' ∧ TokensKept s.accounts s'.accounts ↔
      (∃ old, accountOf s.accounts (rellmAccountId account) = some old ∧ NoNewer old account) ∧
        (account.enabled = true → rellmAccountId account ∉ s.disabled ∧
          ∀ other ∈ s.accounts, other.enabled = true → other.server = account.server →
            rellmAccountId other = rellmAccountId account) := by
  obtain ⟨sortOrder, hmem, _⟩ := upsert_spec account s.accounts
  have hself : { account with sortOrder := sortOrder } ∈ s'.accounts :=
    haccounts ▸ (hmem _).mpr (Or.inl rfl)
  constructor
  · rintro ⟨hlaw, htokens⟩
    rw [haccounts, tokensKept_upsert_iff] at htokens
    refine ⟨?_, fun hon => ⟨?_, fun other hother honother hserver => ?_⟩⟩
    · obtain hgone | ⟨a, ha, hid⟩ := hknown
      · exact absurd (hremoved ▸ hgone) (hlaw.removed _ hself)
      · obtain ⟨old, hold⟩ := accountOf_isSome ha
        rw [hid] at hold
        exact ⟨old, hold, htokens old hold⟩
    · have hoff := hlaw.disabled { account with sortOrder := sortOrder } hself hon
      rw [hdisabled] at hoff
      exact hoff
    · by_contra hne
      have hkept : other ∈ s'.accounts := haccounts ▸ (hmem other).mpr (Or.inr ⟨hother, hne⟩)
      have hsame := hlaw.one_enabled other hkept { account with sortOrder := sortOrder } hself
        honother hon hserver
      exact hne hsame
  · rintro ⟨⟨old, hold, hnewer⟩, hcurrent⟩
    have hcases {a : RellmAccount} (ha : a ∈ s'.accounts) :
        a = { account with sortOrder := sortOrder } ∨ a ∈ s.accounts := by
      rw [haccounts] at ha
      exact ((hmem a).mp ha).imp_right And.left
    refine ⟨⟨?_, ?_, ?_⟩, ?_⟩
    · intro a ha b hb hae hbe hserver
      obtain rfl | ha := hcases ha
      · obtain rfl | hb := hcases hb
        · rfl
        · exact ((hcurrent hae).2 b hb hbe hserver.symm).symm
      · obtain rfl | hb := hcases hb
        · exact (hcurrent hbe).2 a ha hae hserver
        · exact h.one_enabled a ha b hb hae hbe hserver
    · intro a ha
      rw [hremoved]
      obtain rfl | ha := hcases ha
      · obtain ⟨hin, hid⟩ := accountOf_eq_some hold
        have hnot := h.removed old hin
        rw [hid] at hnot
        exact hnot
      · exact h.removed a ha
    · intro a ha hon
      rw [hdisabled]
      obtain rfl | ha := hcases ha
      · exact (hcurrent hon).1
      · exact h.disabled a ha hon
    · rw [haccounts]
      refine tokensKept_upsert_iff.mpr fun old' hold' => ?_
      rw [hold, Option.some.injEq] at hold'
      exact hold' ▸ hnewer

/-- The result of a refresh keeps the law exactly if its account is still current. -/
theorem Lawful.gotPermissionsRefresh_iff (h : Lawful s) (hrecorded : Recorded s) (task : Nat) :
    Kept s (.gotPermissionsRefresh task) ↔ Current s (.gotPermissionsRefresh task) := by
  by_cases hdone : ∃ accId result, s.tasks[task]? = some (.done accId result)
  · obtain ⟨accId, result, hfound⟩ := hdone
    have hstep : step s (.gotPermissionsRefresh task) =
        { s with
          accounts := applyPermissionsRefreshResult accId result s.accounts
          tasks := s.tasks.eraseIdx task } := by
      rw [step, gotPermissionsRefresh, hfound]
    have hkept : Kept s (.gotPermissionsRefresh task) ↔
        Lawful (step s (.gotPermissionsRefresh task)) ∧
          TokensKept s.accounts (step s (.gotPermissionsRefresh task)).accounts :=
      ⟨fun h => ⟨h.lawful, h.tokens⟩, fun h => ⟨h.1, h.2⟩⟩
    rw [hkept, hstep]
    cases result with
    | error error =>
      obtain ⟨f, hf, hid, hon, htokens⟩ :=
        applyPermissionsRefreshResult_error accId error s.accounts
      refine iff_of_true ⟨h.map hid hon hf rfl rfl, ?_⟩ fun accId account user hsome => ?_
      · dsimp only
        rw [hf]
        exact tokensKept_map hid htokens
      · rw [hfound] at hsome
        cases hsome
    | ok found =>
      obtain ⟨account, user⟩ := found
      obtain ⟨_, hknown⟩ := hrecorded.tasks _ (List.mem_of_getElem? hfound) account rfl
      have hiff := h.upsert_iff (hydrated account user) hknown
        { s with
          accounts := upsertRellmAccount (hydrated account user) s.accounts
          tasks := s.tasks.eraseIdx task } rfl rfl rfl
      refine hiff.trans ⟨fun hcurrent accId' account' user' hsome => ?_, fun hcurrent => ?_⟩
      · rw [hfound] at hsome
        cases hsome
        exact hcurrent
      · exact hcurrent accId account user hfound
  · have hstep : step s (.gotPermissionsRefresh task) = s := by
      rw [step, gotPermissionsRefresh]
      split
      · rename_i hfound
        exact absurd ⟨_, _, hfound⟩ hdone
      · rfl
    refine iff_of_true (h.unchanged (by rw [hstep]) (by rw [hstep]) (by rw [hstep])) ?_
    exact fun accId account user hsome => absurd ⟨accId, _, hsome⟩ hdone

/-- A step keeps the accounts as the user left them exactly if the result that lands is current. -/
theorem Lawful.kept_iff (h : Lawful s) (hrecorded : Recorded s) (action : Action) :
    Kept s action ↔ Current s action := by
  cases action with
  | toggleAccountEnabled id => exact iff_of_true (h.toggleAccountEnabled id) trivial
  | toggleServerEnabled frontendHost =>
    exact iff_of_true (h.toggleServerEnabled frontendHost) trivial
  | finishRemoveAccount id => exact iff_of_true (h.finishRemoveAccount id) trivial
  | signIn account => exact iff_of_true (h.signIn hrecorded account) trivial
  | startRefresh id =>
    refine iff_of_true (h.unchanged ?_ ?_ ?_) trivial <;>
    · rw [step, startRefresh]
      split <;> rfl
  | checkToken task now answer =>
    refine iff_of_true (h.unchanged ?_ ?_ ?_) trivial <;>
    · rw [step, checkToken]
      split <;> rfl
  | gotUser task answer =>
    refine iff_of_true (h.unchanged ?_ ?_ ?_) trivial <;>
    · rw [step, gotUser]
      split <;> rfl
  | gotPermissionsRefresh task => exact h.gotPermissionsRefresh_iff hrecorded task

end

theorem Stored.lawful (stored : Stored) : Lawful stored.start where
  one_enabled := stored.one_enabled
  removed _ _ := List.not_mem_nil
  disabled _ _ _ := List.not_mem_nil

theorem Stored.recorded (stored : Stored) : Recorded stored.start where
  accounts := stored.issue_le
  tasks _ htask := absurd htask List.not_mem_nil

/-- However the user's steps and refreshes interleave, the accounts stay as the user left them
exactly if every result of a refresh is still current when it lands. -/
theorem kept_iff_current (stored : Stored) (actions : List Action) :
    Along step Kept stored.start actions ↔ Along step Current stored.start actions := by
  refine along_iff_of_invariant (I := fun s => Lawful s ∧ Recorded s) ?_ ?_
    ⟨stored.lawful, stored.recorded⟩ actions
  · exact fun s action h hkept => ⟨hkept.lawful, h.2.step action⟩
  · exact fun s action h => h.1.kept_iff h.2 action

/-- An account of a server that is connected. -/
def enabledAccount : RellmAccount where
  server := ⟨"rellm.social", by decide +kernel⟩
  userId := "1"
  username := "ada"
  refreshToken := ⟨"refresh", none, 0⟩
  accessToken := ⟨"access", none, 0⟩
  enabled := true

def storedAccount : Stored where
  accounts := [enabledAccount]
  servers := [⟨enabledAccount.server, true, true⟩]
  issued := 0
  one_enabled a ha b hb _ _ _ := by
    rw [List.mem_singleton.mp ha, List.mem_singleton.mp hb]
  issue_le a ha := by
    rw [List.mem_singleton.mp ha]
    exact ⟨le_rfl, le_rfl⟩

/-- The user removes an account while it is being refreshed, and the result brings it back. -/
theorem removed_account_returns :
    ¬ Along step Kept storedAccount.start
      [.startRefresh "rellm.social|1", .finishRemoveAccount "rellm.social|1",
        .checkToken 0 0 (.error .networkError), .gotUser 0 (.ok { id := "1", username := "ada" }),
        .gotPermissionsRefresh 0] := by
  rintro ⟨_, _, _, _, hlast, _⟩
  have haccounts : (step (step (step (step (step storedAccount.start
      (.startRefresh "rellm.social|1")) (.finishRemoveAccount "rellm.social|1"))
      (.checkToken 0 0 (.error .networkError))) (.gotUser 0 (.ok { id := "1", username := "ada" })))
      (.gotPermissionsRefresh 0)).accounts = [enabledAccount] := by
    decide +kernel
  refine hlast.lawful.removed enabledAccount ?_ (by decide +kernel)
  rw [haccounts]
  exact List.mem_singleton_self _

end Rellm.Client.AccountsPanel
