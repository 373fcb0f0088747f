import Rellm.Destinations.Interleaved

/-!
# Credentials that are kept

Whatever runs at the same time, the refresh token that is stored in the end is to be one that X
accepts, of the account that was connected last, and an update is to keep the account.
-/

namespace Rellm.Destinations

open Foundation Content

/-- The stored refresh token is one that X accepts, of the account that was connected last. -/
def TokenAccepted (s : Service) : Prop :=
  ∀ token, refreshToken s.destination.configuration = some token →
    ∃ xUserId, s.reconnectedAs = some xUserId ∧ s.x.owner token = some xUserId

/-- No call is in progress. -/
def Quiet (s : Service) : Prop := s.calls.rows = []

/-- A step leaves the account that the destination connects. -/
def KeepsAccount (s : Service) (action : CallStep) : Prop :=
  accountOf (s.step action).destination.configuration = accountOf s.destination.configuration

/-- The configuration that a call loaded, where it may still write it or have it refreshed. -/
def Phase.known : Phase → Option Json
  | .loaded _ existing => some existing.configuration
  | .exchanged existing reconnected => if reconnected then none else some existing.configuration
  | .tweeting destination => some destination.configuration
  | .refreshed destination _ => some destination.configuration

/-- The new credentials of an update whose platform has not seen them yet. -/
def Phase.credentials : Phase → Option Credentials
  | .loaded request _ => request.bind Configuration.credentials
  | _ => none

/-- X gives out no refresh token twice. -/
def IssuesNew (s : Service) : CallStep → Prop
  | .exchange id apps platforms _ => ∀ call ∈ s.calls.get id,
    ∀ credentials ∈ call.phase.credentials, ∀ grant ∈ credentials.granted apps platforms,
      grant.refreshToken ∉ s.x.issued
  | .refresh _ _ _ answer => ∀ tokens ∈ answer, tokens.refreshToken ∉ s.x.issued
  | _ => True

/-- New credentials are for the account that was connected before, as far as the platform answers
them. -/
def SameAccount (existing : Json) (apps : PlatformApps) (platforms : Platforms) :
    Credentials → Prop
  | .facebookPage _ => True
  | .instagramAccount _ => ∀ pageId ∈ storedText existing "instagram_account" "page_id",
    accountOf existing = some (.instagramAccount pageId)
  | .mastodonAccount instanceHost accessToken =>
    OnOk (platforms.verifyCredentials instanceHost accessToken) fun username =>
      accountOf existing = some (.mastodonAccount instanceHost username)
  | .blueskyAccount handle appPassword =>
    OnOk (platforms.createSession handle appPassword) fun session =>
      accountOf existing = some (.blueskyAccount session.1)
  | .xTwitterAccount authorizationCode codeVerifier =>
    OnOk (xTwitterGrant apps platforms authorizationCode codeVerifier) fun grant =>
      OnOk (platforms.xMe grant.accessToken) fun _ =>
        accountOf existing = some (.xTwitterAccount grant.xUserId)
  | .threadsAccount authorizationCode =>
    OnOk (threadsGrant apps platforms authorizationCode) fun grant =>
      accountOf existing = some (.threadsAccount grant.threadsUserId)

/-- An update without new credentials writes no refresh token back that a post has used up since. -/
def Phase.TokenUnused (s : Service) : Phase → Prop
  | .exchanged existing false => ∀ token ∈ refreshToken existing.configuration,
    refreshToken s.destination.configuration = some token ∨ (s.x.owner token).isSome
  | _ => True

/-- What a step has to meet: new credentials are for the same account, and old ones that are written
back are unused. -/
def Meets (s : Service) : CallStep → Prop
  | .exchange id apps platforms _ => ∀ call ∈ s.calls.get id,
    ∀ credentials ∈ call.phase.credentials, ∀ existing ∈ call.phase.known,
      SameAccount existing apps platforms credentials
  | .writeUpdate id _ => ∀ call ∈ s.calls.get id, call.phase.TokenUnused s
  | _ => True

section

variable (s : Service) (apps : PlatformApps) (platforms : Platforms) (existing : Json)

instance : (action : CallStep) → Decidable (IssuesNew s action)
  | .exchange id apps platforms _ => inferInstanceAs (Decidable (∀ call ∈ s.calls.get id,
    ∀ credentials ∈ call.phase.credentials, ∀ grant ∈ credentials.granted apps platforms,
      grant.refreshToken ∉ s.x.issued))
  | .refresh _ _ _ answer => inferInstanceAs (Decidable (∀ tokens ∈ answer,
    tokens.refreshToken ∉ s.x.issued))
  | .readUpdate .. | .writeUpdate .. | .readTweet .. | .writeTweet .. => .isTrue trivial

instance : (credentials : Credentials) →
    Decidable (SameAccount existing apps platforms credentials)
  | .facebookPage _ => .isTrue trivial
  | .instagramAccount _ => inferInstanceAs (Decidable
    (∀ pageId ∈ storedText existing "instagram_account" "page_id",
      accountOf existing = some (.instagramAccount pageId)))
  | .mastodonAccount instanceHost accessToken => inferInstanceAs (Decidable
    (OnOk (platforms.verifyCredentials instanceHost accessToken) _))
  | .blueskyAccount handle appPassword => inferInstanceAs (Decidable
    (OnOk (platforms.createSession handle appPassword) _))
  | .xTwitterAccount authorizationCode codeVerifier => inferInstanceAs (Decidable
    (OnOk (xTwitterGrant apps platforms authorizationCode codeVerifier) fun grant =>
      OnOk (platforms.xMe grant.accessToken) _))
  | .threadsAccount authorizationCode => inferInstanceAs (Decidable
    (OnOk (threadsGrant apps platforms authorizationCode) _))

instance : (phase : Phase) → Decidable (phase.TokenUnused s)
  | .exchanged existing false => inferInstanceAs (Decidable
    (∀ token ∈ refreshToken existing.configuration,
      refreshToken s.destination.configuration = some token ∨ (s.x.owner token).isSome))
  | .exchanged _ true | .loaded .. | .tweeting _ | .refreshed .. => .isTrue trivial

instance : (action : CallStep) → Decidable (Meets s action)
  | .exchange id apps platforms _ => inferInstanceAs (Decidable (∀ call ∈ s.calls.get id,
    ∀ credentials ∈ call.phase.credentials, ∀ existing ∈ call.phase.known,
      SameAccount existing apps platforms credentials))
  | .writeUpdate id _ => inferInstanceAs (Decidable
    (∀ call ∈ s.calls.get id, call.phase.TokenUnused s))
  | .readUpdate .. | .readTweet .. | .refresh .. | .writeTweet .. => .isTrue trivial

end

/-! ### What configurations say -/

section

variable {existing configuration : Json} {apps : PlatformApps} {platforms : Platforms}
  {now : Int64}

theorem refreshToken_eq_some {token : String} :
    refreshToken configuration = some token ↔
      (xUser configuration).isSome ∧
        storedText configuration "x_twitter_account" "refresh_token" = some token := by
  unfold refreshToken xUser
  cases accountOf configuration with
  | none => simp
  | some account => cases h : account.xUserId? <;> simp [h]

theorem accountOf_of_facebookPage {pageId : String}
    (h : storedText existing "facebook_page" "page_id" = some pageId) :
    accountOf existing = some (.facebookPage pageId) := by
  unfold storedText at h
  obtain ⟨page, hpage, h⟩ := Option.bind_eq_some_iff.mp h
  obtain ⟨id, hid, h⟩ := Option.bind_eq_some_iff.mp h
  unfold accountOf destinationConfigurationToProto
  simp [hpage, hid, h, Configuration.account]

/-- The user on X is stored with the tokens. -/
theorem storedText_of_xUser {xUserId : String} (h : xUser configuration = some xUserId) :
    accountOf configuration = some (.xTwitterAccount xUserId) ∧
      storedText configuration "x_twitter_account" "x_user_id" = some xUserId := by
  obtain ⟨account, haccount, hid⟩ := Option.bind_eq_some_iff.mp h
  obtain ⟨proto, hproto, rfl⟩ := Option.map_eq_some_iff.mp haccount
  have hx : ∃ account, proto = .xTwitterAccount account ∧ account.xUserId = xUserId := by
    cases proto <;> simp_all [Configuration.account, Account.xUserId?]
  obtain ⟨account, rfl, rfl⟩ := hx
  refine ⟨haccount, ?_⟩
  unfold destinationConfigurationToProto at hproto
  iterate 4
    split at hproto
    · simp [Option.bind_eq_some_iff] at hproto
  split at hproto
  · rename_i stored hstored
    simp only [Option.bind_eq_bind, Option.pure_def, Option.bind_eq_some_iff,
      Option.some.injEq, Configuration.xTwitterAccount.injEq] at hproto
    obtain ⟨text, htext, user, huser, rfl⟩ := hproto
    simp [storedText, hstored, htext, huser]
  · split at hproto
    · simp [Option.bind_eq_some_iff] at hproto
    · cases hproto

/-- An account of X is told by the user that is stored with its tokens. -/
theorem accountOf_of_storedXAccount {account : StoredXAccount}
    (h : storedXAccount configuration = .ok account) (hx : (xUser configuration).isSome) :
    accountOf configuration = some (.xTwitterAccount account.xUserId) ∧
      refreshToken configuration = some account.refreshToken := by
  obtain ⟨xUserId, hxUser⟩ := Option.isSome_iff_exists.mp hx
  obtain ⟨haccount, hstoredUser⟩ := storedText_of_xUser hxUser
  unfold storedXAccount at h
  simp only [checks_eq_ok, okOr_eq_ok] at h
  obtain ⟨stored, hstored, user, huser, username, -, accessToken, -, refresh, hrefresh, expiresAt,
    -, h⟩ := h
  cases h
  have htext (field : String) : storedText configuration "x_twitter_account" field =
      (stored.get field).bind Json.asString := by
    simp [storedText, hstored]
  rw [htext, huser, Option.some.injEq] at hstoredUser
  subst hstoredUser
  exact ⟨haccount, refreshToken_eq_some.mpr ⟨hx, (htext _).trans hrefresh⟩⟩

/-- A post that is pushed to X is pushed by way of an account there. -/
theorem isSome_xUser_of_checkDestination {permission : SyncPermissions → Permission}
    {user : Content.User} {destination : SyncDestination} {account : XTwitterAccount}
    (h : checkDestination permission user destination = .ok (.xTwitterAccount account)) :
    (xUser destination.configuration).isSome := by
  unfold checkDestination at h
  obtain ⟨_, -, h⟩ := checks_eq_ok.mp h
  split at h
  · rename_i configuration hconfiguration
    obtain ⟨_, -, h⟩ := checks_eq_ok.mp h
    cases h
    simp [xUser, accountOf, hconfiguration, Configuration.account, Account.xUserId?]
  · cases h

theorem connectFacebookPage_pageId {shortLivedToken pageId : String}
    {page : FacebookPageConnection}
    (h : connectFacebookPage apps platforms shortLivedToken pageId = .ok page) :
    page.pageId = pageId := by
  unfold connectFacebookPage findPageAccessToken at h
  simp only [checks_eq_ok] at h
  obtain ⟨_, _, _, _, _, _, _, _, h⟩ := h
  cases h
  rfl

/-- Credentials that are for the same account leave the account. -/
theorem accountOf_reconnect {credentials : Credentials}
    (h : reconnect existing apps platforms now credentials = .ok configuration)
    (hsame : SameAccount existing apps platforms credentials) :
    accountOf configuration = accountOf existing := by
  cases credentials with
  | facebookPage shortLivedToken =>
    simp only [reconnect, checks_eq_ok, okOr_eq_ok] at h
    obtain ⟨pageId, hpage, page, hconnected, h⟩ := h
    cases h
    rw [accountOf_of_facebookPage hpage, accountOf_facebookPageJson,
      connectFacebookPage_pageId hconnected]
  | instagramAccount shortLivedToken =>
    simp only [reconnect, checks_eq_ok, okOr_eq_ok] at h
    obtain ⟨pageId, hpage, page, hconnected, linked, -, h⟩ := h
    cases h
    rw [hsame pageId hpage, accountOf_instagramAccountJson, connectFacebookPage_pageId hconnected]
  | mastodonAccount instanceHost accessToken =>
    simp only [reconnect, checks_eq_ok] at h
    obtain ⟨username, husername, h⟩ := h
    cases h
    rw [hsame username husername, accountOf_mastodonAccountJson]
  | blueskyAccount handle appPassword =>
    simp only [reconnect, checks_eq_ok] at h
    obtain ⟨⟨did, accessJwt⟩, hsession, h⟩ := h
    cases h
    rw [hsame _ hsession, accountOf_blueskyAccountJson]
  | xTwitterAccount authorizationCode codeVerifier =>
    simp only [reconnect, checks_eq_ok] at h
    obtain ⟨grant, hgrant, ⟨⟩, hme, h⟩ := h
    cases h
    rw [hsame grant hgrant () hme, accountOf_xTwitterAccountJson]
  | threadsAccount authorizationCode =>
    simp only [reconnect, checks_eq_ok] at h
    obtain ⟨grant, hgrant, h⟩ := h
    cases h
    rw [hsame grant hgrant, accountOf_threadsAccountJson]

/-- Only an account on X that is reconnected has a refresh token, the one X has just given out. -/
theorem grant_of_reconnect {credentials : Credentials} {token : String}
    (h : reconnect existing apps platforms now credentials = .ok configuration)
    (htoken : refreshToken configuration = some token) :
    ∃ grant, credentials.granted apps platforms = some grant ∧
      grant.refreshToken = token ∧ xUser configuration = some grant.xUserId := by
  cases credentials <;> simp only [reconnect, checks_eq_ok] at h
  case facebookPage =>
    obtain ⟨_, _, _, _, h⟩ := h
    cases h
    cases htoken
  case instagramAccount =>
    obtain ⟨_, _, _, _, _, _, h⟩ := h
    cases h
    cases htoken
  case mastodonAccount =>
    obtain ⟨_, _, h⟩ := h
    cases h
    cases htoken
  case blueskyAccount =>
    obtain ⟨_, _, h⟩ := h
    cases h
    cases htoken
  case xTwitterAccount authorizationCode codeVerifier =>
    obtain ⟨grant, hgrant, _, _, h⟩ := h
    cases h
    rw [refreshToken_xTwitterAccountJson, Option.some.injEq] at htoken
    refine ⟨grant, by simp [Credentials.granted, hgrant, Except.toOption], htoken, ?_⟩
    unfold xUser
    rw [accountOf_xTwitterAccountJson]
    rfl
  case threadsAccount =>
    obtain ⟨_, _, h⟩ := h
    cases h
    cases htoken

end

/-! ### What the calls hold -/

/-- The configuration that a call is about to write with tokens of its own. -/
def Phase.held : Phase → Option Json
  | .exchanged existing reconnected => if reconnected then some existing.configuration else none
  | .refreshed _ configuration => some configuration
  | _ => none

/-- A refresh token is in the row, or a call has loaded it. -/
def Known (s : Service) (token : String) : Prop :=
  refreshToken s.destination.configuration = some token ∨
    ∃ call ∈ s.calls.rows, ∃ configuration, call.phase.known = some configuration ∧
      refreshToken configuration = some token

/-- A call is about to write a refresh token that it was given. -/
def Held (s : Service) (id : Nat) (token : String) : Prop :=
  ∃ call ∈ s.calls.rows, call.id = id ∧ ∃ configuration,
    call.phase.held = some configuration ∧ refreshToken configuration = some token

/-- A post has used up a refresh token, and is about to write the one it was given for it. -/
def Pending (s : Service) (token : String) : Prop :=
  ∃ call ∈ s.calls.rows, ∃ destination configuration,
    call.phase = .refreshed destination configuration ∧
      refreshToken destination.configuration = some token

/-- All configurations are for one account. A token that is known is accepted for that account or
used up, one that is held is accepted and nobody else's, and the one in the row is accepted or being
replaced. -/
structure Sound (s : Service) : Prop where
  user : s.reconnectedAs = xUser s.destination.configuration
  accounts : ∀ call ∈ s.calls.rows, ∀ configuration,
    call.phase.known = some configuration ∨ call.phase.held = some configuration →
      accountOf configuration = accountOf s.destination.configuration
  tweeting : ∀ call ∈ s.calls.rows, ∀ destination, call.phase = .tweeting destination →
    (xUser destination.configuration).isSome
  known : ∀ token, Known s token → token ∈ s.x.issued ∧
    ∀ xUserId, s.x.owner token = some xUserId → s.reconnectedAs = some xUserId
  held : ∀ id token, Held s id token → token ∈ s.x.issued ∧
    (∃ xUserId, s.reconnectedAs = some xUserId ∧ s.x.owner token = some xUserId) ∧ ¬ Known s token
  apart : ∀ id other token, Held s id token → Held s other token → id = other
  stored : ∀ token, refreshToken s.destination.configuration = some token →
    (s.x.owner token).isSome ∨ Pending s token

namespace Sound

variable {s : Service}

/-- Without calls in progress the stored token is accepted. -/
theorem tokenAccepted (h : Sound s) (hquiet : Quiet s) : TokenAccepted s := by
  intro token htoken
  rcases h.stored token htoken with howner | ⟨call, hmem, _⟩
  · obtain ⟨xUserId, howner⟩ := Option.isSome_iff_exists.mp howner
    exact ⟨xUserId, (h.known token (.inl htoken)).2 xUserId howner, howner⟩
  · rw [hquiet] at hmem
    cases hmem

/-- Nothing is in progress, and X accepts the stored token. -/
theorem of_quiet (huser : s.reconnectedAs = xUser s.destination.configuration)
    (hquiet : Quiet s) (haccepted : TokenAccepted s)
    (hissued : ∀ token, (s.x.owner token).isSome → token ∈ s.x.issued) : Sound s where
  user := huser
  accounts call hmem := by
    rw [hquiet] at hmem
    cases hmem
  tweeting call hmem := by
    rw [hquiet] at hmem
    cases hmem
  known token hknown := by
    rcases hknown with htoken | ⟨call, hmem, _⟩
    · obtain ⟨xUserId, hre, howner⟩ := haccepted token htoken
      refine ⟨hissued token (by rw [howner]; rfl), fun other hother => ?_⟩
      rwa [howner, ← hre] at hother
    · rw [hquiet] at hmem
      cases hmem
  held id token hheld := by
    obtain ⟨call, hmem, _⟩ := hheld
    rw [hquiet] at hmem
    cases hmem
  apart id other token hheld := by
    obtain ⟨call, hmem, _⟩ := hheld
    rw [hquiet] at hmem
    cases hmem
  stored token htoken := by
    obtain ⟨xUserId, -, howner⟩ := haccepted token htoken
    exact .inl (by rw [howner]; rfl)

end Sound

section

variable {s : Service} {id : Nat} {phase : Phase} {token : String}

theorem mem_begin {call : Call} : call ∈ (s.begin id phase).calls.rows ↔
    call ∈ s.calls.rows ∧ call.id ≠ id ∨ call = ⟨id, phase⟩ :=
  Table.mem_put _

theorem mem_finish {call : Call} :
    call ∈ (s.finish id).calls.rows ↔ call ∈ s.calls.rows ∧ call.id ≠ id :=
  Table.mem_delete_key _

/-- The call with an id is not about to write refreshed tokens. -/
def NotRefreshed (s : Service) (id : Nat) : Prop :=
  ∀ call ∈ s.calls.rows, call.id = id → ∀ destination configuration,
    call.phase ≠ .refreshed destination configuration

theorem NotRefreshed.of_get {call : Call} (hget : s.calls.get id = some call)
    (h : ∀ destination configuration, call.phase ≠ .refreshed destination configuration) :
    NotRefreshed s id := by
  intro other hmem hid
  rw [Table.mem_rows_iff, hid, hget, Option.some.injEq] at hmem
  rwa [← hmem]

theorem NotRefreshed.of_get_none (hget : s.calls.get id = none) : NotRefreshed s id :=
  fun call hmem hid => absurd hid (Table.get_eq_none_iff.mp hget call hmem)

theorem known_of_begin (h : Known (s.begin id phase) token) : Known s token ∨
    ∃ configuration, phase.known = some configuration ∧ refreshToken configuration = some token := by
  rcases h with hrow | ⟨call, hmem, hcall⟩
  · exact .inl (.inl hrow)
  · rcases mem_begin.mp hmem with ⟨hmem, _⟩ | rfl
    · exact .inl (.inr ⟨call, hmem, hcall⟩)
    · exact .inr hcall

theorem held_of_begin {other : Nat} (h : Held (s.begin id phase) other token) :
    Held s other token ∨ other = id ∧
      ∃ configuration, phase.held = some configuration ∧ refreshToken configuration = some token := by
  obtain ⟨call, hmem, hid, hcall⟩ := h
  rcases mem_begin.mp hmem with ⟨hmem, _⟩ | rfl
  · exact .inl ⟨call, hmem, hid, hcall⟩
  · exact .inr ⟨hid.symm, hcall⟩

theorem known_of_finish (h : Known (s.finish id) token) : Known s token := by
  rcases h with hrow | ⟨call, hmem, hcall⟩
  · exact .inl hrow
  · exact .inr ⟨call, (mem_finish.mp hmem).1, hcall⟩

theorem held_of_finish {other : Nat} (h : Held (s.finish id) other token) :
    other ≠ id ∧ Held s other token := by
  obtain ⟨call, hmem, rfl, hcall⟩ := h
  obtain ⟨hmem, hne⟩ := mem_finish.mp hmem
  exact ⟨hne, call, hmem, rfl, hcall⟩

/-- A call that did not refresh the tokens is not what the one in the row waits for. -/
theorem Pending.mem_of_notRefreshed (h : Pending s token) (hid : NotRefreshed s id) :
    ∃ call ∈ s.calls.rows, call.id ≠ id ∧ ∃ destination configuration,
      call.phase = .refreshed destination configuration ∧
        refreshToken destination.configuration = some token := by
  obtain ⟨call, hmem, destination, configuration, hphase, htoken⟩ := h
  exact ⟨call, hmem, fun heq => hid call hmem heq _ _ hphase, destination, configuration, hphase,
    htoken⟩

theorem Pending.begin (h : Pending s token) (hid : NotRefreshed s id) :
    Pending (s.begin id phase) token := by
  obtain ⟨call, hmem, hne, hcall⟩ := h.mem_of_notRefreshed hid
  exact ⟨call, mem_begin.mpr (.inl ⟨hmem, hne⟩), hcall⟩

theorem Pending.finish (h : Pending s token) (hid : NotRefreshed s id) :
    Pending (s.finish id) token := by
  obtain ⟨call, hmem, hne, hcall⟩ := h.mem_of_notRefreshed hid
  exact ⟨call, mem_finish.mpr ⟨hmem, hne⟩, hcall⟩

end

namespace Sound

variable {s : Service} {id : Nat} {phase : Phase} {token : String}

/-- A call that ends without a write. -/
theorem finish (h : Sound s) (hid : NotRefreshed s id) : Sound (s.finish id) where
  user := h.user
  accounts call hmem := h.accounts call (mem_finish.mp hmem).1
  tweeting call hmem := h.tweeting call (mem_finish.mp hmem).1
  known token hknown := h.known token (known_of_finish hknown)
  held other token hheld := by
    obtain ⟨hissued, howner, hnot⟩ := h.held other token (held_of_finish hheld).2
    exact ⟨hissued, howner, fun hknown => hnot (known_of_finish hknown)⟩
  apart other another token hheld hheld' :=
    h.apart other another token (held_of_finish hheld).2 (held_of_finish hheld').2
  stored token htoken := (h.stored token htoken).imp_right fun hpending => hpending.finish hid

/-- A call takes up a configuration that is known, or one with tokens of its own. -/
theorem begin (h : Sound s) (hid : NotRefreshed s id)
    (haccounts : ∀ configuration,
      phase.known = some configuration ∨ phase.held = some configuration →
        accountOf configuration = accountOf s.destination.configuration)
    (htweeting : ∀ destination, phase = .tweeting destination →
      (xUser destination.configuration).isSome)
    (hknown : ∀ configuration token, phase.known = some configuration →
      refreshToken configuration = some token → Known s token)
    (hheld : ∀ configuration token, phase.held = some configuration →
      refreshToken configuration = some token → token ∈ s.x.issued ∧
        (∃ xUserId, s.reconnectedAs = some xUserId ∧ s.x.owner token = some xUserId) ∧
          ¬ Known s token ∧ ∀ other, ¬ Held s other token) :
    Sound (s.begin id phase) := by
  have hknown' (token : String) (hbegin : Known (s.begin id phase) token) : Known s token := by
    rcases known_of_begin hbegin with hold | ⟨configuration, hphase, htoken⟩
    · exact hold
    · exact hknown configuration token hphase htoken
  constructor
  · exact h.user
  · intro call hmem
    rcases mem_begin.mp hmem with ⟨hmem, _⟩ | rfl
    · exact h.accounts call hmem
    · exact haccounts
  · intro call hmem
    rcases mem_begin.mp hmem with ⟨hmem, _⟩ | rfl
    · exact h.tweeting call hmem
    · exact htweeting
  · exact fun token hbegin => h.known token (hknown' token hbegin)
  · intro other token hbegin
    rcases held_of_begin hbegin with hold | ⟨-, configuration, hphase, htoken⟩
    · obtain ⟨hissued, howner, hnot⟩ := h.held other token hold
      exact ⟨hissued, howner, fun hbegin => hnot (hknown' token hbegin)⟩
    · obtain ⟨hissued, howner, hnot, -⟩ := hheld configuration token hphase htoken
      exact ⟨hissued, howner, fun hbegin => hnot (hknown' token hbegin)⟩
  · intro other another token hbegin hbegin'
    rcases held_of_begin hbegin with hold | ⟨rfl, configuration, hphase, htoken⟩
    · rcases held_of_begin hbegin' with hold' | ⟨rfl, configuration, hphase, htoken⟩
      · exact h.apart other another token hold hold'
      · exact absurd hold ((hheld configuration token hphase htoken).2.2.2 other)
    · rcases held_of_begin hbegin' with hold' | ⟨rfl, -⟩
      · exact absurd hold' ((hheld configuration token hphase htoken).2.2.2 another)
      · rfl
  · exact fun token htoken =>
      (h.stored token htoken).imp_right fun hpending => hpending.begin hid

/-- X gives out a token that it has not given out before. -/
theorem issue (h : Sound s) (hnew : token ∉ s.x.issued) (xUserId : String) :
    Sound { s with x := s.x.issue token xUserId } := by
  have howner (other : String) (hissued : other ∈ s.x.issued) :
      (s.x.issue token xUserId).owner other = s.x.owner other := by
    rw [XApi.owner_issue, if_neg]
    rintro rfl
    exact hnew hissued
  constructor
  · exact h.user
  · exact h.accounts
  · exact h.tweeting
  · intro other hknown
    obtain ⟨hissued, hsame⟩ := h.known other hknown
    refine ⟨List.mem_cons_of_mem _ hissued, ?_⟩
    rwa [howner other hissued]
  · intro id other hheld
    obtain ⟨hissued, hsame, hnot⟩ := h.held id other hheld
    refine ⟨List.mem_cons_of_mem _ hissued, ?_, hnot⟩
    rwa [howner other hissued]
  · exact h.apart
  · intro other hstored
    rw [howner other (h.known other (.inl hstored)).1]
    exact h.stored other hstored

/-- A token is used up that a call loaded which has the new one. -/
theorem consume (token : String) (h : Sound s) (hpending : Pending s token) :
    Sound { s with x := s.x.consume token } := by
  have hknown : Known s token := by
    obtain ⟨call, hmem, destination, configuration, hphase, htoken⟩ := hpending
    exact .inr ⟨call, hmem, destination.configuration, by rw [hphase]; rfl, htoken⟩
  constructor
  · exact h.user
  · exact h.accounts
  · exact h.tweeting
  · intro other hother
    obtain ⟨hissued, hsame⟩ := h.known other hother
    refine ⟨hissued, fun xUserId howner => ?_⟩
    rw [XApi.owner_consume] at howner
    split at howner
    · cases howner
    · exact hsame xUserId howner
  · intro id other hheld
    obtain ⟨hissued, hsame, hnot⟩ := h.held id other hheld
    refine ⟨hissued, ?_, hnot⟩
    rwa [XApi.owner_consume, if_neg]
    rintro rfl
    exact hnot hknown
  · exact h.apart
  · intro other hstored
    rw [XApi.owner_consume]
    by_cases heq : other = token
    · exact .inr (heq ▸ hpending)
    · rw [if_neg heq]
      exact h.stored other hstored

/-- A call ends with a write of its configuration. -/
theorem write {call : Call} (destination : SyncDestination) (h : Sound s)
    (hget : s.calls.get id = some call)
    (hcall : call.phase.known = some destination.configuration ∨
      call.phase.held = some destination.configuration)
    (haccepted : ∀ token, refreshToken destination.configuration = some token →
      (s.x.owner token).isSome ∨
        refreshToken s.destination.configuration = some token ∧ NotRefreshed s id) :
    Sound { s.finish id with destination := destination } := by
  obtain ⟨hmem, hcallId⟩ := Table.get_eq_some_iff.mp hget
  have haccount := h.accounts call hmem _ hcall
  have hwritten (token : String) (htoken : refreshToken destination.configuration = some token) :
      Known s token ∨ Held s id token := by
    rcases hcall with hphase | hphase
    · exact .inl (.inr ⟨call, hmem, _, hphase, htoken⟩)
    · exact .inr ⟨call, hmem, hcallId, _, hphase, htoken⟩
  have hknown (token : String)
      (hwrite : Known { s.finish id with destination := destination } token) :
      Known s token ∨ Held s id token := by
    rcases hwrite with htoken | ⟨other, hother, hphase⟩
    · exact hwritten token htoken
    · exact .inl (.inr ⟨other, (mem_finish.mp hother).1, hphase⟩)
  constructor
  · exact h.user.trans (congrArg (·.bind Account.xUserId?) haccount.symm)
  · intro other hother configuration hconfiguration
    rw [haccount]
    exact h.accounts other (mem_finish.mp hother).1 configuration hconfiguration
  · exact fun other hother => h.tweeting other (mem_finish.mp hother).1
  · intro token hwrite
    rcases hknown token hwrite with hold | hheld
    · exact h.known token hold
    · obtain ⟨hissued, ⟨xUserId, hre, howner⟩, -⟩ := h.held id token hheld
      refine ⟨hissued, fun other (hother : s.x.owner token = some other) => ?_⟩
      rwa [howner, ← hre] at hother
  · intro other token hheld
    obtain ⟨hne, hheld⟩ := held_of_finish hheld
    obtain ⟨hissued, howner, hnot⟩ := h.held other token hheld
    refine ⟨hissued, howner, fun hwrite => ?_⟩
    rcases hknown token hwrite with hold | hheld'
    · exact hnot hold
    · exact hne (h.apart other id token hheld hheld')
  · exact fun other another token hheld hheld' =>
      h.apart other another token (held_of_finish hheld).2 (held_of_finish hheld').2
  · intro token htoken
    rcases haccepted token htoken with howner | ⟨hrow, hid⟩
    · exact .inl howner
    · exact (h.stored token hrow).imp_right fun hpending => hpending.finish hid

/-- An update has its credentials checked. -/
theorem exchange {request : Option Configuration} {existing : SyncDestination}
    {apps : PlatformApps} {platforms : Platforms} {now : Int64} (h : Sound s)
    (hget : s.calls.get id = some ⟨id, .loaded request existing⟩)
    (hnew : IssuesNew s (.exchange id apps platforms now))
    (hmeets : Meets s (.exchange id apps platforms now)) :
    Sound (s.exchange id request existing apps platforms now) := by
  have hmem := (Table.get_eq_some_iff.mp hget).1
  have hid : NotRefreshed s id := .of_get hget fun _ _ hphase => nomatch hphase
  have haccount := h.accounts _ hmem existing.configuration (.inl rfl)
  unfold Service.exchange
  cases hcredentials : request.bind Configuration.credentials with
  | none =>
    dsimp only
    refine h.begin hid ?_ (fun _ hphase => nomatch hphase) ?_ (fun _ _ hheld => nomatch hheld)
    · rintro configuration (⟨⟨⟩⟩ | ⟨⟨⟩⟩)
      exact haccount
    · rintro configuration token ⟨⟩ htoken
      exact .inr ⟨_, hmem, _, rfl, htoken⟩
  | some credentials =>
    dsimp only
    have hsame := hmeets _ hget credentials hcredentials existing.configuration rfl
    have hfresh := hnew _ hget credentials hcredentials
    have hx : Sound { s with x := s.x.exchange apps platforms credentials } := by
      unfold XApi.exchange
      split
      · rename_i grant hgrant
        exact h.issue (hfresh grant hgrant) grant.xUserId
      · exact h
    cases hreconnect : reconnect existing.configuration apps platforms now credentials with
    | error status => exact hx.finish hid
    | ok configuration =>
      have haccount' := (accountOf_reconnect hreconnect hsame).trans haccount
      refine hx.begin hid ?_ (fun _ hphase => nomatch hphase) (fun _ _ hknown => nomatch hknown) ?_
      · rintro configuration (⟨⟨⟩⟩ | ⟨⟨⟩⟩)
        exact haccount'
      · rintro configuration token ⟨⟩ htoken
        obtain ⟨grant, hgrant, rfl, huser⟩ := grant_of_reconnect hreconnect htoken
        have hissued : s.x.exchange apps platforms credentials =
            s.x.issue grant.refreshToken grant.xUserId := by
          unfold XApi.exchange
          rw [hgrant]
        rw [hissued]
        refine ⟨List.mem_cons_self, ⟨grant.xUserId, ?_, ?_⟩, fun hknown => ?_, fun other hheld => ?_⟩
        · rw [h.user, ← huser]
          exact congrArg (·.bind Account.xUserId?) haccount'.symm
        · rw [XApi.owner_issue, if_pos rfl]
        · exact hfresh grant hgrant (h.known _ hknown).1
        · exact hfresh grant hgrant (h.held other _ hheld).1

/-- The whole row is written. -/
theorem writeUpdate {existing : SyncDestination} {reconnected : Bool} {now : Timestamp}
    (h : Sound s) (hget : s.calls.get id = some ⟨id, .exchanged existing reconnected⟩)
    (hmeets : Meets s (.writeUpdate id now)) :
    Sound (s.writeUpdate id existing reconnected now) := by
  have hmem := (Table.get_eq_some_iff.mp hget).1
  have hid : NotRefreshed s id := .of_get hget fun _ _ hphase => nomatch hphase
  have hre : (if reconnected then xUser existing.configuration else s.reconnectedAs) =
      s.reconnectedAs := by
    split
    · rename_i hreconnected
      rw [h.user]
      refine congrArg (·.bind Account.xUserId?) (h.accounts _ hmem _ (.inr ?_))
      rw [Phase.held, if_pos hreconnected]
    · rfl
  unfold Service.writeUpdate
  rw [hre]
  cases reconnected with
  | true =>
    refine h.write { existing with updatedAt := some now } hget (.inr rfl) ?_
    intro token htoken
    obtain ⟨-, ⟨xUserId, -, howner⟩, -⟩ := h.held id token ⟨_, hmem, rfl, _, rfl, htoken⟩
    exact .inl (by rw [howner]; rfl)
  | false =>
    refine h.write { existing with updatedAt := some now } hget (.inl rfl) ?_
    intro token htoken
    exact (hmeets _ hget token htoken).symm.imp_right fun hrow => ⟨hrow, hid⟩

/-- A post has its tokens refreshed. -/
theorem refresh {destination : SyncDestination} {apps : PlatformApps} {now : Int64}
    {answer : Option XTokens} (h : Sound s)
    (hget : s.calls.get id = some ⟨id, .tweeting destination⟩)
    (hnew : IssuesNew s (.refresh id apps now answer)) :
    Sound (s.refresh id destination apps now answer) := by
  have hmem := (Table.get_eq_some_iff.mp hget).1
  have hid : NotRefreshed s id := .of_get hget fun _ _ hphase => nomatch hphase
  have haccount := h.accounts _ hmem destination.configuration (.inl rfl)
  unfold Service.refresh
  split
  · rename_i client account tokens hclient hstored
    split
    · obtain ⟨hdestination, htoken⟩ :=
        accountOf_of_storedXAccount hstored (h.tweeting _ hmem destination rfl)
      have hknown : Known s account.refreshToken := .inr ⟨_, hmem, _, rfl, htoken⟩
      have hfresh := hnew tokens rfl
      cases hx : s.x.refresh account.refreshToken tokens with
      | none => exact h.finish hid
      | some x =>
        obtain ⟨xUserId, howner, hx⟩ := Option.map_eq_some_iff.mp hx
        obtain ⟨hissued, hre⟩ := h.known _ hknown
        have hne : tokens.refreshToken ≠ account.refreshToken := fun heq => hfresh (heq ▸ hissued)
        have hbegin : Sound ({ s with x := s.x.issue tokens.refreshToken xUserId }.begin id
            (.refreshed destination (account.refreshed tokens now))) := by
          refine (h.issue hfresh xUserId).begin hid ?_ (fun _ hphase => nomatch hphase) ?_ ?_
          · rintro configuration (⟨⟨⟩⟩ | ⟨⟨⟩⟩)
            · exact haccount
            · exact hdestination.symm.trans haccount
          · rintro configuration token ⟨⟩ htoken'
            exact .inr ⟨_, hmem, _, rfl, htoken'⟩
          · rintro configuration token ⟨⟩ ⟨⟩
            refine ⟨List.mem_cons_self, ⟨xUserId, hre xUserId howner, ?_⟩, fun hknown => ?_,
              fun other hheld => ?_⟩
            · rw [XApi.owner_issue, if_pos rfl]
            · exact hfresh (h.known _ hknown).1
            · exact hfresh (h.held other _ hheld).1
        have hconsumed := hbegin.consume account.refreshToken
          ⟨_, mem_begin.mpr (.inr rfl), _, _, rfl, htoken⟩
        have hx' : x = (s.x.issue tokens.refreshToken xUserId).consume account.refreshToken := by
          rw [XApi.consume_issue _ hne, hx]
        rw [hx']
        exact hconsumed
    · exact h.finish hid
  · exact h.finish hid

/-- The refreshed tokens are written. -/
theorem writeTweet {destination : SyncDestination} {configuration : Json} (h : Sound s)
    (hget : s.calls.get id = some ⟨id, .refreshed destination configuration⟩) :
    Sound (s.writeTweet id configuration) := by
  have hmem := (Table.get_eq_some_iff.mp hget).1
  refine h.write _ hget (.inr rfl) ?_
  intro token htoken
  obtain ⟨-, ⟨xUserId, -, howner⟩, -⟩ := h.held id token ⟨_, hmem, rfl, _, rfl, htoken⟩
  exact .inl (by rw [howner]; rfl)

/-- A call loads the row. -/
theorem load (h : Sound s) (hget : s.calls.get id = none)
    (hknown : phase.known = some s.destination.configuration) (hheld : phase.held = none)
    (htweeting : ∀ destination, phase = .tweeting destination →
      (xUser destination.configuration).isSome) : Sound (s.begin id phase) := by
  refine h.begin (.of_get_none hget) ?_ htweeting ?_ ?_
  · rintro configuration (hphase | hphase)
    · rw [hknown] at hphase
      cases hphase
      rfl
    · rw [hheld] at hphase
      cases hphase
  · intro configuration token hphase htoken
    rw [hknown] at hphase
    cases hphase
    exact .inl htoken
  · intro configuration token hphase
    rw [hheld] at hphase
    cases hphase

theorem step {action : CallStep} (h : Sound s) (hnew : IssuesNew s action)
    (hmeets : Meets s action) : Sound (s.step action) := by
  cases action with
  | readUpdate id user request =>
    dsimp only [Service.step]
    split
    · rename_i hget _ _
      exact h.load hget rfl rfl fun _ hphase => nomatch hphase
    · exact h
  | exchange id apps platforms now =>
    dsimp only [Service.step]
    split
    · rename_i other request existing hget
      cases Table.key_of_get hget
      exact h.exchange hget hnew hmeets
    · exact h
  | writeUpdate id now =>
    dsimp only [Service.step]
    split
    · rename_i other existing reconnected hget
      cases Table.key_of_get hget
      exact h.writeUpdate hget hmeets
    · exact h
  | readTweet id permission user =>
    dsimp only [Service.step]
    split
    · rename_i account hget hcheck
      refine h.load hget rfl rfl ?_
      rintro destination ⟨⟩
      exact isSome_xUser_of_checkDestination hcheck
    · exact h
  | refresh id apps now answer =>
    dsimp only [Service.step]
    split
    · rename_i other destination hget
      cases Table.key_of_get hget
      exact h.refresh hget hnew
    · exact h
  | writeTweet id =>
    dsimp only [Service.step]
    split
    · rename_i other destination configuration hget
      cases Table.key_of_get hget
      exact h.writeTweet hget
    · exact h

theorem keepsAccount {action : CallStep} (h : Sound s) : KeepsAccount s action := by
  have hsame (id : Nat) (call : Call) (configuration : Json) (hget : s.calls.get id = some call)
      (hcall : call.phase.known = some configuration ∨ call.phase.held = some configuration) :
      accountOf configuration = accountOf s.destination.configuration :=
    h.accounts call (Table.get_eq_some_iff.mp hget).1 configuration hcall
  unfold KeepsAccount
  cases action with
  | readUpdate id user request =>
    dsimp only [Service.step]
    split <;> rfl
  | exchange id apps platforms now =>
    dsimp only [Service.step]
    split
    · unfold Service.exchange
      split
      · rfl
      · dsimp only
        split <;> rfl
    · rfl
  | writeUpdate id now =>
    dsimp only [Service.step]
    split
    · rename_i other existing reconnected hget
      refine hsame id _ existing.configuration hget ?_
      cases reconnected with
      | true => exact .inr rfl
      | false => exact .inl rfl
    · rfl
  | readTweet id permission user =>
    dsimp only [Service.step]
    split <;> rfl
  | refresh id apps now answer =>
    dsimp only [Service.step]
    split
    · unfold Service.refresh
      split
      · split
        · split <;> rfl
        · rfl
      · rfl
    · rfl
  | writeTweet id =>
    dsimp only [Service.step]
    split
    · rename_i other destination configuration hget
      exact hsame id _ configuration hget (.inr rfl)
    · rfl

end Sound

/-- The destination before any call: X accepts its refresh token, for the account it connects. -/
structure Connected (s : Service) : Prop where
  quiet : Quiet s
  user : s.reconnectedAs = xUser s.destination.configuration
  accepted : TokenAccepted s
  issued : ∀ token, (s.x.owner token).isSome → token ∈ s.x.issued

theorem Connected.sound {s : Service} (h : Connected s) : Sound s :=
  .of_quiet h.user h.quiet h.accepted h.issued

/-- In a run of updates and posts whose steps meet their conditions, the stored refresh token is one
that X accepts whenever no call is in progress, and no step changes the account. -/
theorem credentials_kept {s : Service} (hconnected : Connected s) {actions : List CallStep}
    (hissues : Along Service.step IssuesNew s actions)
    (hmeets : Along Service.step Meets s actions) :
    Throughout Service.step (fun s => Quiet s → TokenAccepted s) s actions ∧
      Along Service.step KeepsAccount s actions := by
  have hboth := along_and.mpr ⟨hissues, hmeets⟩
  have hstep (s : Service) (action : CallStep) (hsound : Sound s)
      (h : IssuesNew s action ∧ Meets s action) : Sound (s.step action) :=
    hsound.step h.1 h.2
  refine ⟨?_, ?_⟩
  · exact Throughout.of_along hstep (fun _ hsound => hsound.tokenAccepted) hconnected.sound hboth
  · exact Along.of_invariant (fun s action hsound h => ⟨hsound.keepsAccount, hstep s action hsound h⟩)
      hconnected.sound hboth

/-- A destination on X, and the refresh token that X accepts for it. -/
def connectedToX : Service where
  destination := {
    id := 1
    userId := 1
    configuration := xTwitterAccountJson "7" "someone" "access0" "refresh0" 0
    createdAt := ⟨0, 0⟩
    updatedAt := none }
  x := ⟨["refresh0"], [("refresh0", "7")]⟩
  calls := .empty
  reconnectedAs := some "7"

/-- The owner of that destination. -/
def destinationOwner : Content.User where
  id := 1
  permissions := .array [some "ADMIN"]
  defaultFollowModeration := .unmoderated

def xTwitterApp : PlatformApps where
  xTwitterAuthConfig := some ("client", "secret")
  frontendHost := some "example.com"

/-- Platforms of which only X answers, for one of its users. -/
def xAnswers (xUserId : String) : Platforms where
  graphPages _ _ _ := .error notConfigured
  linkedInstagramAccount _ _ := .error notConfigured
  verifyCredentials _ _ := .error notConfigured
  createSession _ _ := .error notConfigured
  xGrant _ _ _ _ := .ok ⟨"access2", "refresh2", 7200, xUserId, "someone"⟩
  xMe _ := .ok ()
  threadsToken _ _ _ := .error notConfigured
  threadsLongLivedToken _ _ := .error notConfigured
  threadsUsername _ _ := .error notConfigured

/-- An update with credentials for X. -/
def reconnectX : Configuration :=
  .xTwitterAccount { authorizationCode := some "code", codeVerifier := some "verifier" }

/-- A post has the tokens refreshed while its author reconnects the account. -/
def reconnectedMeanwhile : List CallStep :=
  [.readTweet 1 SyncPermissions.posts destinationOwner,
    .readUpdate 2 destinationOwner (some reconnectX),
    .refresh 1 xTwitterApp 0 (some ⟨"access1", "refresh1", 7200⟩),
    .exchange 2 xTwitterApp (xAnswers "7") 0, .writeUpdate 2 ⟨0, 0⟩, .writeTweet 1]

theorem Connected.connectedToX : Connected connectedToX where
  quiet := rfl
  user := by decide +kernel
  accepted := by
    rintro token ⟨⟩
    exact ⟨"7", rfl, rfl⟩
  issued token howner := by
    unfold Destinations.connectedToX XApi.owner at *
    rw [List.lookup_cons] at howner
    split at howner
    · simp_all
    · cases howner

theorem credentials_kept_reconnectedMeanwhile :
    Throughout Service.step (fun s => Quiet s → TokenAccepted s) connectedToX
        reconnectedMeanwhile ∧
      Along Service.step KeepsAccount connectedToX reconnectedMeanwhile := by
  obtain ⟨hissues, hmeets⟩ := along_and.mp (show Along Service.step
    (fun s action => IssuesNew s action ∧ Meets s action) connectedToX reconnectedMeanwhile by
      decide +kernel)
  exact credentials_kept .connectedToX hissues hmeets

/-- An update without new credentials overlaps a post that has the tokens refreshed. -/
def writtenBack : List CallStep :=
  [.readUpdate 1 destinationOwner none, .readTweet 2 SyncPermissions.posts destinationOwner,
    .refresh 2 xTwitterApp 0 (some ⟨"access1", "refresh1", 7200⟩), .writeTweet 2,
    .exchange 1 xTwitterApp (xAnswers "7") 0, .writeUpdate 1 ⟨0, 0⟩]

/-- The update connects another account on X. -/
def otherAccount : List CallStep :=
  [.readUpdate 1 destinationOwner (some reconnectX), .exchange 1 xTwitterApp (xAnswers "8") 0,
    .writeUpdate 1 ⟨0, 0⟩]

theorem credentials_rolled_back :
    ¬ Throughout Service.step (fun s => Quiet s → TokenAccepted s) connectedToX writtenBack ∧
      ¬ Along Service.step KeepsAccount connectedToX otherAccount := by
  refine ⟨fun h => ?_, fun h => ?_⟩
  · have hlast : Quiet (run Service.step connectedToX writtenBack) →
        TokenAccepted (run Service.step connectedToX writtenBack) := h.2.2.2.2.2.2
    obtain ⟨hquiet, htoken, hnone⟩ :
        (run Service.step connectedToX writtenBack).calls.rows.length = 0 ∧
          refreshToken (run Service.step connectedToX writtenBack).destination.configuration =
            some "refresh0" ∧
          (run Service.step connectedToX writtenBack).x.owner "refresh0" = none := by
      decide +kernel
    obtain ⟨xUserId, -, howner⟩ := hlast (List.eq_nil_of_length_eq_zero hquiet) "refresh0" htoken
    rw [hnone] at howner
    cases howner
  · have hlast := h.2.2.1
    unfold KeepsAccount at hlast
    revert hlast
    decide +kernel

end Rellm.Destinations
