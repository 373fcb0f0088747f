import Rellm.Calendar.Vevents
import Rellm.Foundation.Serial
import Rellm.Foundation.Statements

/-!
# Refresh tokens and access tokens

A session is a refresh token, which may expire, and the access tokens issued for it,
which do. What the random generator draws for a call is part of the call. An
insertion under a token that is taken aborts the handler.
-/

namespace Rellm.Authentication

open Foundation Calendar

structure UserRefreshToken where
  id : Nat
  userId : Nat
  token : String
  expiresAt : Option Instant
  deriving DecidableEq, Repr

structure UserAccessToken where
  id : Nat
  refreshTokenId : Nat
  token : String
  expiresAt : Instant
  deriving DecidableEq, Repr

/-- The token tables. -/
structure TokenDb where
  refreshTokens : Serial UserRefreshToken.id
  accessTokens : Serial UserAccessToken.id

/-- The stored refresh token with a text. -/
def TokenDb.refreshToken (db : TokenDb) (token : String) : Option UserRefreshToken :=
  db.refreshTokens.rows.find? fun row => row.token = token

/-- The stored access token with a text. -/
def TokenDb.accessToken (db : TokenDb) (token : String) : Option UserAccessToken :=
  db.accessTokens.rows.find? fun row => row.token = token

/-- A handler on the token tables. -/
abbrev TokenM := EStateM Failure TokenDb

structure ExpirableToken where
  token : String
  expiresAt : Option Instant
  deriving DecidableEq, Repr

structure RefreshTokenResponse where
  refreshToken : Option ExpirableToken
  accessToken : Option ExpirableToken
  deriving DecidableEq, Repr

structure AccessTokenResponse where
  refreshToken : Option ExpirableToken
  accessToken : Option ExpirableToken
  deriving DecidableEq, Repr

/-- What is drawn at random for a call: whether a token that does not expire is rotated, and the
texts of new tokens. -/
structure Draws where
  rotation : Fin 21
  refreshToken : String
  accessToken : String
  deriving DecidableEq, Repr

/-- A number of seconds, as a duration. -/
def seconds (n : Int) : Int := n * 1000000

/-- How long an access token is valid, in minutes. -/
def accessTokenExpirationMins : Int := 15

/-- How long a renewed refresh token is valid, in days. -/
def lifetimeDays : Int := 14

/-- How long before it expires a refresh token is renewed, in days. -/
def renewalPeriodDays : Int := 13

def insertRefreshToken (userId : Nat) (token : String) (expiresAt : Option Instant) :
    TokenM UserRefreshToken := fun db =>
  if (db.refreshToken token).isSome then .error .panic db
  else .ok ⟨db.refreshTokens.next, userId, token, expiresAt⟩ { db with
    refreshTokens := db.refreshTokens.insert (fun id => ⟨id, userId, token, expiresAt⟩)
      fun _ => rfl }

def insertAccessToken (refreshTokenId : Nat) (token : String) (expiresAt : Instant) :
    TokenM UserAccessToken := fun db =>
  if (db.accessToken token).isSome then .error .panic db
  else .ok ⟨db.accessTokens.next, refreshTokenId, token, expiresAt⟩ { db with
    accessTokens := db.accessTokens.insert (fun id => ⟨id, refreshTokenId, token, expiresAt⟩)
      fun _ => rfl }

/-- Generates and stores an access token for a refresh token. -/
def generateAccessToken (now : Instant) (draws : Draws) (refreshTokenId : Nat) :
    TokenM ExpirableToken := do
  let expiration := now + seconds (60 * accessTokenExpirationMins)
  let row ← insertAccessToken refreshTokenId draws.accessToken expiration
  return { token := row.token, expiresAt := some row.expiresAt }

/-- Generates and stores a refresh token and an access token for a user. -/
def generateRefreshAndAccessToken (now : Instant) (draws : Draws) (userId : Nat)
    (expiresAt : Option Instant) : TokenM RefreshTokenResponse := do
  let row ← insertRefreshToken userId draws.refreshToken expiresAt
  let accessToken ← generateAccessToken now draws row.id
  return {
    refreshToken := some { token := row.token, expiresAt := row.expiresAt }
    accessToken := some accessToken }

/-- Sets when a refresh token expires. -/
def setRefreshTokenExpiry (id : Nat) (expiresAt : Instant) : TokenM Unit := fun db =>
  .ok () { db with
    refreshTokens := db.refreshTokens.modify id
      (fun row => { row with expiresAt := some expiresAt }) fun _ => rfl }

/-- The pair of tokens as the reply to a refresh. -/
def RefreshTokenResponse.toAccessTokenResponse (pair : RefreshTokenResponse) :
    AccessTokenResponse :=
  ⟨pair.refreshToken, pair.accessToken⟩

def notAuthorized : Failure := .status ⟨.unauthenticated, "not_authorized"⟩

/-- The refresh token with a text; without one the caller is not authorized. -/
def findRefreshToken (token : String) : TokenM UserRefreshToken := fun db =>
  match db.refreshToken token with
  | some row => .ok row db
  | none => .error notAuthorized db

/-- Issues an access token for a refresh token, and now and then a new refresh token too. -/
def accessToken (now : Instant) (draws : Draws) (refreshToken : String) :
    TokenM AccessTokenResponse := do
  let row ← findRefreshToken refreshToken
  match row.expiresAt with
  | some t =>
    if now < t then throw notAuthorized
    else if t - days renewalPeriodDays < now then do
      let pair ← generateRefreshAndAccessToken now draws row.userId
        (some (now + days lifetimeDays))
      return pair.toAccessTokenResponse
    else do
      let token ← generateAccessToken now draws row.id
      return { accessToken := some token, refreshToken := none }
  | none =>
    if draws.rotation = 0 then do
      setRefreshTokenExpiry row.id (now + seconds 360)
      let pair ← generateRefreshAndAccessToken now draws row.userId none
      return pair.toAccessTokenResponse
    else do
      let token ← generateAccessToken now draws row.id
      return { accessToken := some token, refreshToken := none }

/-- The user that the access token of a request is for. -/
def getAuthUserId (authorization : Option String) (db : TokenDb) : Except Status (Option Nat) :=
  match authorization with
  | none => .ok none
  | some token =>
    match (db.accessToken token).bind fun row => db.refreshTokens.get row.refreshTokenId with
    | some row => .ok (some row.userId)
    | none => .error ⟨.unauthenticated, "invalid_auth_token"⟩

/-- Deletes the tokens that have expired, and the access tokens of deleted refresh tokens. -/
def deleteExpiredTokens (now : Instant) (db : TokenDb) : TokenDb :=
  let accessTokens := db.accessTokens.delete fun row => decide (row.expiresAt < now)
  let refreshTokens := db.refreshTokens.delete fun row =>
    row.expiresAt.any fun t => decide (t < now)
  { refreshTokens := refreshTokens
    accessTokens := accessTokens.delete fun row =>
      (refreshTokens.get row.refreshTokenId).isNone }

section

variable {now : Instant} {draws : Draws} {db : TokenDb}

/-- The texts drawn for a call are not taken. -/
def Draws.Fresh (draws : Draws) (db : TokenDb) : Prop :=
  db.refreshToken draws.refreshToken = none ∧ db.accessToken draws.accessToken = none

instance (draws : Draws) (db : TokenDb) : Decidable (draws.Fresh db) :=
  inferInstanceAs (Decidable (_ ∧ _))

/-- Under a fresh text an access token is issued. -/
theorem succeeded_generateAccessToken (h : db.accessToken draws.accessToken = none)
    (refreshTokenId : Nat) :
    succeeded (generateAccessToken now draws refreshTokenId db) = true := by
  rw [generateAccessToken, succeeded_bind_pure, insertAccessToken, h]
  rfl

/-- Under fresh texts a pair of tokens is issued. -/
theorem succeeded_generateRefreshAndAccessToken (h : draws.Fresh db) (userId : Nat)
    (expiresAt : Option Instant) :
    succeeded (generateRefreshAndAccessToken now draws userId expiresAt db) = true := by
  obtain ⟨row, db', hinsert, hsame⟩ : ∃ row db',
      insertRefreshToken userId draws.refreshToken expiresAt db = .ok row db' ∧
        db'.accessTokens = db.accessTokens := by
    rw [insertRefreshToken, h.1]
    exact ⟨_, _, rfl, rfl⟩
  have haccess : db'.accessToken draws.accessToken = none := by
    rw [TokenDb.accessToken, hsame]
    exact h.2
  rw [generateRefreshAndAccessToken, bind_of_ok hinsert, succeeded_bind_pure]
  exact succeeded_generateAccessToken haccess row.id

/-- A text is taken if a stored token has it. -/
theorem refreshToken_eq_none {token : String} :
    db.refreshToken token = none ↔ token ∉ db.refreshTokens.rows.map (·.token) := by
  simp [TokenDb.refreshToken]

/-- Setting an expiry takes no text. -/
theorem Draws.Fresh.setExpiry (h : draws.Fresh db) (id : Nat) (expiresAt : Instant) :
    draws.Fresh (finalState (setRefreshTokenExpiry id expiresAt db)) := by
  refine ⟨?_, h.2⟩
  have hrows : (finalState (setRefreshTokenExpiry id expiresAt db)).refreshTokens.rows.map
      (·.token) = db.refreshTokens.rows.map (·.token) := by
    apply Table.map_rows_update <;> exact fun _ => rfl
  rw [refreshToken_eq_none, hrows, ← refreshToken_eq_none]
  exact h.1

/-- A call for a stored refresh token succeeds exactly if the token does not expire later. -/
theorem succeeded_accessToken (h : draws.Fresh db) {token : String} {row : UserRefreshToken}
    (hrow : db.refreshToken token = some row) :
    succeeded (accessToken now draws token db) = true ↔ ∀ t ∈ row.expiresAt, t ≤ now := by
  have hfind : findRefreshToken token db = .ok row db := by
    rw [findRefreshToken, hrow]
  rw [accessToken, bind_of_ok hfind]
  cases hexpiry : row.expiresAt with
  | none =>
    refine iff_of_true ?_ fun _ h => by cases h
    dsimp only
    split
    · have hset : setRefreshTokenExpiry row.id (now + seconds 360) db =
          .ok () (finalState (setRefreshTokenExpiry row.id (now + seconds 360) db)) := rfl
      rw [bind_of_ok hset, succeeded_bind_pure]
      exact succeeded_generateRefreshAndAccessToken (h.setExpiry _ _) _ _
    · rw [succeeded_bind_pure]
      exact succeeded_generateAccessToken h.2 _
  | some t =>
    dsimp only
    split
    · rename_i hlater
      refine iff_of_false Bool.false_ne_true fun hall => ?_
      exact absurd (hall t rfl) (Int.not_le.mpr hlater)
    · rename_i hexpired
      have hall : ∀ t' ∈ some t, t' ≤ now := by
        rintro _ ⟨⟩
        exact Int.not_lt.mp hexpired
      refine iff_of_true ?_ hall
      split
      · rw [succeeded_bind_pure]
        exact succeeded_generateRefreshAndAccessToken h _ _
      · rw [succeeded_bind_pure]
        exact succeeded_generateAccessToken h.2 _

end

end Rellm.Authentication
