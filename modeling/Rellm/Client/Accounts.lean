import Rellm.Client.Feeds
import Rellm.Foundation.Run

/-!
# Signed-in accounts

The accounts of a browser are refreshed over the network while the user goes on switching, removing
and adding them. The result of a refresh replaces the account by the copy of it that the refresh was
started with.
-/

namespace Rellm.Client.AccountsPanel

open Foundation
open PostsPage (Timestamp timestampToPosix)

/-- The name of a server; it has no bar. -/
structure Host where
  name : String
  no_bar : '|' ∉ name.toList
  deriving DecidableEq

/-- A token. Tokens are numbered in the order in which they were issued; nothing reads the number. -/
structure Token where
  token : String
  expiresAt : Option Int
  issue : Nat
  deriving DecidableEq, Repr

/-- An account; of the data that only its owner sees, the identifiers. -/
structure RellmAccount where
  server : Host
  userId : String
  username : String
  refreshToken : Token
  accessToken : Token
  enabled : Bool
  avatarMediaId : Option String := none
  permissions : List Nat := []
  realName : String := ""
  needsPassword : Bool := false
  sortOrder : Int := 0
  syncDestinations : List String := []
  syncSources : List String := []
  aiModels : List String := []
  marketSubscriptions : List String := []
  mediaStorageBytesUsed : Int := 0
  mediaStorageLimitBytes : Option Int := none
  phone : Option String := none
  email : Option String := none
  deriving DecidableEq

/-- What a server tells a user about themselves. -/
structure User where
  id : String
  username : String
  avatar : Option String := none
  permissions : List Nat := []
  realName : String := ""
  syncDestinations : List String := []
  syncSources : List String := []
  aiModels : List String := []
  marketSubscriptions : List String := []
  mediaStorageBytesUsed : Int := 0
  mediaStorageLimitBytes : Option Int := none
  phone : Option String := none
  email : Option String := none
  deriving DecidableEq, Repr

structure RellmServer where
  frontendHost : Host
  enabled : Bool
  connected : Bool
  deriving DecidableEq

inductive GrpcStatus where
  | unauthenticated
  | other (code : Nat)
  deriving DecidableEq, Repr

inductive GrpcError where
  | badUrl
  | timeout
  | networkError
  | badStatus (status : GrpcStatus)
  | badBody
  deriving DecidableEq, Repr

def rellmAccountId (account : RellmAccount) : String := account.server.name ++ "|" ++ account.userId

def disableOtherRellmAccountsOnServer (keepEnabledId : String) (server : Host)
    (accounts : List RellmAccount) : List RellmAccount :=
  accounts.map fun a =>
    if a.server = server ∧ rellmAccountId a ≠ keepEnabledId then { a with enabled := false } else a

/-- The account with an identifier. -/
def accountOf (accounts : List RellmAccount) (id : String) : Option RellmAccount :=
  (accounts.filter fun a => rellmAccountId a = id).head?

def upsertRellmAccount (account : RellmAccount) (accounts : List RellmAccount) :
    List RellmAccount :=
  match accountOf accounts (rellmAccountId account) with
  | some existing =>
    accounts.map fun a =>
      if rellmAccountId a = rellmAccountId account then
        { account with sortOrder := existing.sortOrder }
      else a
  | none => account :: accounts

/-- The account with what its server tells of it. -/
def hydrated (account : RellmAccount) (user : User) : RellmAccount :=
  { account with
    username := user.username
    permissions := user.permissions
    avatarMediaId := user.avatar
    realName := user.realName
    needsPassword := false
    syncDestinations := user.syncDestinations
    syncSources := user.syncSources
    aiModels := user.aiModels
    marketSubscriptions := user.marketSubscriptions
    mediaStorageBytesUsed := user.mediaStorageBytesUsed
    mediaStorageLimitBytes := user.mediaStorageLimitBytes
    phone := user.phone
    email := user.email }

abbrev RefreshResult := Except GrpcError (RellmAccount × User)

def applyPermissionsRefreshResult (accId : String) (result : RefreshResult)
    (accounts : List RellmAccount) : List RellmAccount :=
  match result with
  | .ok (refreshedAccount, user) => upsertRellmAccount (hydrated refreshedAccount user) accounts
  | .error (.badStatus .unauthenticated) =>
    accounts.map fun a =>
      if rellmAccountId a = accId then { a with needsPassword := true, enabled := false } else a
  | .error _ => accounts

/-- A token that expires within a minute counts as expired. -/
def isExpired (now : Int) (token : Token) : Bool :=
  match token.expiresAt with
  | none => false
  | some expiresAt => expiresAt ≤ now + 60000

structure ExpirableToken where
  token : String
  expiresAt : Option Timestamp
  deriving DecidableEq, Repr

structure AccessTokenResponse where
  accessToken : Option ExpirableToken
  refreshToken : Option ExpirableToken
  deriving DecidableEq, Repr

def tokenFromExpirable (issue : Nat) (expirable : ExpirableToken) : Token where
  token := expirable.token
  expiresAt := expirable.expiresAt.map timestampToPosix
  issue := issue

/-- The account with an access token that is valid, given the server's answer should it be asked. -/
def refreshIfNeeded (now : Int) (issue : Nat) (answer : Except GrpcError AccessTokenResponse)
    (account : RellmAccount) : Except GrpcError RellmAccount :=
  if !isExpired now account.accessToken then .ok account
  else
    match answer with
    | .ok resp =>
      match resp.accessToken with
      | some accessToken =>
        .ok { account with
          accessToken := tokenFromExpirable issue accessToken
          refreshToken :=
            (resp.refreshToken.map (tokenFromExpirable issue)).getD account.refreshToken }
      | none => .error .networkError
    | .error error => .error error

/-- How far a refresh has come. -/
inductive RefreshTask where
  | checkingToken (account : RellmAccount)
  | gettingUser (account : RellmAccount)
  | done (accId : String) (result : RefreshResult)
  deriving DecidableEq

/-- The accounts and servers of a browser and the refreshes under way; beside them, what the user
removed or disabled and has not signed in to or enabled since, and how many tokens were issued. -/
structure State where
  accounts : List RellmAccount
  servers : List RellmServer
  tasks : List RefreshTask
  removed : List String
  disabled : List String
  issued : Nat

def rellmServerForHost (servers : List RellmServer) (frontendHost : Host) : Option RellmServer :=
  (servers.filter fun s => s.frontendHost = frontendHost).head?

def enableRellmServerFor (frontendHost : Host) (servers : List RellmServer) : List RellmServer :=
  servers.map fun server =>
    if server.frontendHost = frontendHost then { server with enabled := true } else server

/-- A server that is signed in to is known, connected and enabled. -/
def signedInServers (frontendHost : Host) (servers : List RellmServer) : List RellmServer :=
  if servers.any (fun server => server.frontendHost = frontendHost) then
    servers.map fun server =>
      if server.frontendHost = frontendHost then { server with enabled := true, connected := true }
      else server
  else servers ++ [⟨frontendHost, true, true⟩]

/-- Starts the refresh of an account, of which it takes a copy. -/
def refreshPermissions (server : RellmServer) (account : RellmAccount) : RefreshTask :=
  if server.connected then .checkingToken account
  else .done (rellmAccountId account) (.error .networkError)

inductive Action where
  | toggleAccountEnabled (id : String)
  | toggleServerEnabled (frontendHost : Host)
  | finishRemoveAccount (id : String)
  | signIn (account : RellmAccount)
  | startRefresh (id : String)
  | checkToken (task : Nat) (now : Int) (answer : Except GrpcError AccessTokenResponse)
  | gotUser (task : Nat) (answer : Except GrpcError User)
  | gotPermissionsRefresh (task : Nat)

def toggled (id : String) (accounts : List RellmAccount) : List RellmAccount :=
  accounts.map fun account =>
    if rellmAccountId account = id then { account with enabled := !account.enabled } else account

def toggleAccountEnabled (s : State) (id : String) : State :=
  let toggledAccounts := toggled id s.accounts
  match (toggledAccounts.filter fun a => decide (rellmAccountId a = id) && a.enabled).head? with
  | some account =>
    let newServers := enableRellmServerFor account.server s.servers
    { s with
      accounts := disableOtherRellmAccountsOnServer id account.server toggledAccounts
      servers := newServers
      tasks := s.tasks ++ ((rellmServerForHost newServers account.server).map
        fun server => refreshPermissions server account).toList
      disabled := s.disabled.filter fun disabled => disabled ≠ id }
  | none =>
    { s with
      accounts := toggledAccounts
      disabled := id :: s.disabled }

def toggleServerEnabled (s : State) (frontendHost : Host) : State :=
  let wasEnabled := ((rellmServerForHost s.servers frontendHost).map (·.enabled)).getD false
  { s with
    servers := s.servers.map fun server =>
      if server.frontendHost = frontendHost then { server with enabled := !server.enabled }
      else server
    accounts :=
      if wasEnabled then
        s.accounts.map fun account =>
          if account.server = frontendHost then { account with enabled := false } else account
      else s.accounts
    disabled :=
      if wasEnabled then
        ((s.accounts.filter fun account => account.server = frontendHost).map rellmAccountId) ++
          s.disabled
      else s.disabled }

def finishRemoveAccount (s : State) (id : String) : State :=
  { s with
    accounts := s.accounts.filter fun account => rellmAccountId account ≠ id
    removed := id :: s.removed }

/-- The account as a sign-in returns it, with tokens that were just issued. -/
def signedIn (issue : Nat) (account : RellmAccount) : RellmAccount :=
  { account with
    enabled := true
    accessToken := { account.accessToken with issue := issue }
    refreshToken := { account.refreshToken with issue := issue } }

def signIn (s : State) (account : RellmAccount) : State :=
  { s with
    accounts := disableOtherRellmAccountsOnServer (rellmAccountId account) account.server
      (upsertRellmAccount (signedIn (s.issued + 1) account) s.accounts)
    servers := signedInServers account.server s.servers
    removed := s.removed.filter fun id => id ≠ rellmAccountId account
    disabled := s.disabled.filter fun id => id ≠ rellmAccountId account
    issued := s.issued + 1 }

def startRefresh (s : State) (id : String) : State :=
  match accountOf s.accounts id with
  | some account =>
    { s with
      tasks := s.tasks ++ ((rellmServerForHost s.servers account.server).map
        fun server => refreshPermissions server account).toList }
  | none => s

def checkToken (s : State) (task : Nat) (now : Int)
    (answer : Except GrpcError AccessTokenResponse) : State :=
  match s.tasks[task]? with
  | some (.checkingToken account) =>
    { s with
      tasks := s.tasks.set task
        (match refreshIfNeeded now (s.issued + 1) answer account with
        | .ok refreshedAccount => .gettingUser refreshedAccount
        | .error error => .done (rellmAccountId account) (.error error))
      issued := s.issued + 1 }
  | _ => s

def gotUser (s : State) (task : Nat) (answer : Except GrpcError User) : State :=
  match s.tasks[task]? with
  | some (.gettingUser account) =>
    { s with
      tasks := s.tasks.set task
        (.done (rellmAccountId account) (answer.map fun user => (account, user))) }
  | _ => s

def gotPermissionsRefresh (s : State) (task : Nat) : State :=
  match s.tasks[task]? with
  | some (.done accId result) =>
    { s with
      accounts := applyPermissionsRefreshResult accId result s.accounts
      tasks := s.tasks.eraseIdx task }
  | _ => s

def step (s : State) : Action → State
  | .toggleAccountEnabled id => toggleAccountEnabled s id
  | .toggleServerEnabled frontendHost => toggleServerEnabled s frontendHost
  | .finishRemoveAccount id => finishRemoveAccount s id
  | .signIn account => signIn s account
  | .startRefresh id => startRefresh s id
  | .checkToken task now answer => checkToken s task now answer
  | .gotUser task answer => gotUser s task answer
  | .gotPermissionsRefresh task => gotPermissionsRefresh s task

/-- At most one account of each server is enabled. -/
def OneEnabled (accounts : List RellmAccount) : Prop :=
  ∀ a ∈ accounts, ∀ b ∈ accounts, a.enabled = true → b.enabled = true → a.server = b.server →
    rellmAccountId a = rellmAccountId b

/-- The tokens of an account are no newer than those of another. -/
def NoNewer (a b : RellmAccount) : Prop :=
  a.accessToken.issue ≤ b.accessToken.issue ∧ a.refreshToken.issue ≤ b.refreshToken.issue

/-- No account is left with older tokens than it had. -/
def TokensKept (accounts accounts' : List RellmAccount) : Prop :=
  ∀ id old new, accountOf accounts id = some old → accountOf accounts' id = some new →
    NoNewer old new

/-- The accounts are as the user left them. -/
structure Lawful (s : State) : Prop where
  one_enabled : OneEnabled s.accounts
  removed : ∀ a ∈ s.accounts, rellmAccountId a ∉ s.removed
  disabled : ∀ a ∈ s.accounts, a.enabled = true → rellmAccountId a ∉ s.disabled

/-- A step leaves the accounts as the user left them, with tokens no older than they were. -/
structure Kept (s : State) (action : Action) : Prop where
  lawful : Lawful (step s action)
  tokens : TokensKept s.accounts (step s action).accounts

/-- A result that lands is that of an account that is still there and has no newer tokens, and if it
was enabled, the user has not disabled it and no other account of its server is enabled. -/
def Current (s : State) : Action → Prop
  | .gotPermissionsRefresh task =>
    ∀ accId account user, s.tasks[task]? = some (.done accId (.ok (account, user))) →
      (∃ old, accountOf s.accounts (rellmAccountId account) = some old ∧ NoNewer old account) ∧
        (account.enabled = true → rellmAccountId account ∉ s.disabled ∧
          ∀ other ∈ s.accounts, other.enabled = true → other.server = account.server →
            rellmAccountId other = rellmAccountId account)
  | _ => True

/-- What a browser starts with. -/
structure Stored where
  accounts : List RellmAccount
  servers : List RellmServer
  issued : Nat
  one_enabled : OneEnabled accounts
  issue_le : ∀ a ∈ accounts, a.accessToken.issue ≤ issued ∧ a.refreshToken.issue ≤ issued

def Stored.start (stored : Stored) : State where
  accounts := stored.accounts
  servers := stored.servers
  tasks := []
  removed := []
  disabled := []
  issued := stored.issued

end Rellm.Client.AccountsPanel
