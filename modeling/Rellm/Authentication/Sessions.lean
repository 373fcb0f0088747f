import Rellm.Authentication.Tokens
import Rellm.Foundation.Run

/-!
# Sessions over time

Whether a refresh token is honored is decided by a comparison that is the wrong way
round, and whether an access token has expired is not looked at. The expiry of a
token is respected exactly where neither decides: refresh tokens that do not expire,
and access tokens that have not expired or are deleted.
-/

namespace Rellm.Authentication

open Foundation Calendar

/-- The events: tokens are issued to a user who logs in or creates an account, an access token is
asked for, a request carries an access token, or the clean-up job runs. -/
inductive SessionEvent where
  | issue (now : Instant) (userId : Nat) (requested : Option Instant) (draws : Draws)
  | accessToken (now : Instant) (refreshToken : String) (draws : Draws)
  | request (now : Instant) (authorization : Option String)
  | cleanUp (now : Instant)

namespace SessionEvent

/-- When an event happens. -/
def now : SessionEvent → Instant
  | issue now _ _ _ | accessToken now _ _ | request now _ | cleanUp now => now

/-- What is drawn for an event is not taken. -/
def Fresh (db : TokenDb) : SessionEvent → Prop
  | issue _ _ _ draws | accessToken _ _ draws => draws.Fresh db
  | request _ _ | cleanUp _ => True

instance (db : TokenDb) (event : SessionEvent) : Decidable (event.Fresh db) := by
  cases event <;> unfold Fresh <;> infer_instance

end SessionEvent

/-- What an event makes of the tables. -/
def sessionStep (db : TokenDb) : SessionEvent → TokenDb
  | .issue now userId requested draws =>
    finalState (generateRefreshAndAccessToken now draws userId requested db)
  | .accessToken now refreshToken draws => finalState (accessToken now draws refreshToken db)
  | .request _ _ => db
  | .cleanUp now => deleteExpiredTokens now db

/-- The law of an event: a call for a stored refresh token succeeds exactly if the token does not
expire or expires later, and a request is authenticated only by a stored access token that expires
later. -/
def ExpiryRespected (db : TokenDb) : SessionEvent → Prop
  | .accessToken now token draws => ∀ row ∈ db.refreshToken token,
    (succeeded (accessToken now draws token db) = true ↔ ∀ t ∈ row.expiresAt, now < t)
  | .request now authorization => ∀ token ∈ authorization, ∀ userId,
    getAuthUserId authorization db = .ok (some userId) →
      ∃ row, db.accessToken token = some row ∧ now < row.expiresAt
  | .issue _ _ _ _ | .cleanUp _ => True

/-- An access token is asked for with a refresh token that does not expire, and a request carries
an access token that has not expired or is not stored with its refresh token. -/
def ExpiryIrrelevant (db : TokenDb) : SessionEvent → Prop
  | .accessToken _ token _ => ∀ row ∈ db.refreshToken token, row.expiresAt = none
  | .request now authorization => ∀ token ∈ authorization, ∀ row ∈ db.accessToken token,
    (db.refreshTokens.get row.refreshTokenId).isSome = true → now < row.expiresAt
  | .issue _ _ _ _ | .cleanUp _ => True

instance (db : TokenDb) (event : SessionEvent) : Decidable (ExpiryIrrelevant db event) := by
  cases event <;> unfold ExpiryIrrelevant <;> infer_instance

section

variable {db : TokenDb} {now : Instant}

/-- A call respects the expiry of a refresh token exactly if there is none. -/
theorem expiryRespected_accessToken {token : String} {draws : Draws} (h : draws.Fresh db) :
    ExpiryRespected db (.accessToken now token draws) ↔
      ExpiryIrrelevant db (.accessToken now token draws) := by
  unfold ExpiryRespected ExpiryIrrelevant
  apply forall_congr'
  intro row
  apply imp_congr_right
  intro hrow
  rw [succeeded_accessToken h hrow]
  cases row.expiresAt with
  | none => simp
  | some t =>
    refine iff_of_false (fun hlaw => ?_) (by simp)
    have hswapped : t ≤ now ↔ now < t := by simpa using hlaw
    rcases Int.lt_or_le now t with hlater | hexpired
    · exact Int.not_le.mpr hlater (hswapped.mpr hlater)
    · exact Int.not_lt.mpr hexpired (hswapped.mp hexpired)

/-- A request is authenticated by a stored access token whose refresh token is stored. -/
theorem getAuthUserId_eq_some {token : String} {userId : Nat} :
    getAuthUserId (some token) db = .ok (some userId) ↔
      ∃ row refreshToken, db.accessToken token = some row ∧
        db.refreshTokens.get row.refreshTokenId = some refreshToken ∧
        refreshToken.userId = userId := by
  rw [getAuthUserId]
  cases haccess : db.accessToken token with
  | none => simp
  | some row =>
    cases hrefresh : db.refreshTokens.get row.refreshTokenId with
    | none => simp [hrefresh]
    | some refreshToken => simp [hrefresh]

/-- A request respects the expiry of an access token exactly if it has not come. -/
theorem expiryRespected_request {authorization : Option String} :
    ExpiryRespected db (.request now authorization) ↔
      ExpiryIrrelevant db (.request now authorization) := by
  unfold ExpiryRespected ExpiryIrrelevant
  apply forall_congr'
  intro token
  apply imp_congr_right
  rintro ⟨⟩
  constructor
  · intro hlaw row hrow hstored
    obtain ⟨refreshToken, hrefresh⟩ := Option.isSome_iff_exists.mp hstored
    obtain ⟨row', hrow', hlater⟩ :=
      hlaw refreshToken.userId (getAuthUserId_eq_some.mpr ⟨row, refreshToken, hrow, hrefresh, rfl⟩)
    obtain rfl := Option.some.inj (hrow.symm.trans hrow')
    exact hlater
  · intro hirrelevant userId hauthenticated
    obtain ⟨row, refreshToken, hrow, hrefresh, _⟩ := getAuthUserId_eq_some.mp hauthenticated
    exact ⟨row, hrow, hirrelevant row hrow (by rw [hrefresh]; rfl)⟩

/-- An event respects expiry exactly if expiry decides nothing in it. -/
theorem expiryRespected_iff (event : SessionEvent) (h : event.Fresh db) :
    ExpiryRespected db event ↔ ExpiryIrrelevant db event := by
  cases event with
  | issue now userId requested draws => exact Iff.rfl
  | accessToken now token draws => exact expiryRespected_accessToken h
  | request now authorization => exact expiryRespected_request
  | cleanUp now => exact Iff.rfl

end

/-- For every run whose drawn texts are not taken, expiry is respected if and only if it decides
nothing in any event. -/
theorem expiry_respected_iff (db : TokenDb) (events : List SessionEvent)
    (hfresh : Along sessionStep (fun db event => event.Fresh db) db events) :
    Along sessionStep ExpiryRespected db events ↔ Along sessionStep ExpiryIrrelevant db events :=
  along_congr (fun _ event h => expiryRespected_iff event h) hfresh

/-- No token is stored. -/
def noTokens : TokenDb := ⟨.empty, .empty⟩

/-- Draws that do not rotate a token, with new texts. -/
def draws (suffix : String) : Draws := ⟨⟨1, by decide⟩, "refresh" ++ suffix, "access" ++ suffix⟩

/-- The expiry of tokens is respected in a session that does not expire, while its access token
has not. -/
theorem expiry_respected_undated :
    Along sessionStep ExpiryRespected noTokens
      [.issue 0 1 none (draws "1"), .accessToken 0 "refresh1" (draws "2"),
        .request (seconds 60) (some "access2")] :=
  (expiry_respected_iff noTokens _ (by decide +kernel)).mpr (by decide +kernel)

/-- A refresh token that is rotated out is refused during its 360 seconds of grace. -/
theorem rotated_token_refused :
    ¬ ∀ (db : TokenDb) (events : List SessionEvent),
      events.Pairwise (fun event later => event.now ≤ later.now) →
      Along sessionStep (fun db event => event.Fresh db) db events →
      Along sessionStep ExpiryRespected db events := by
  intro h
  obtain ⟨_, _, hlast, _⟩ := h noTokens
    [.issue 0 1 none (draws "1"), .accessToken 0 "refresh1" { draws "2" with rotation := 0 },
      .accessToken (seconds 10) "refresh1" (draws "3")] (by decide) (by decide +kernel)
  have hgrace := (hlast ⟨1, 1, "refresh1", some (seconds 360)⟩ (by decide +kernel)).mpr
    (by decide +kernel)
  exact absurd hgrace (by decide +kernel)

end Rellm.Authentication
