import EnterpriseSystem.Application.AuthenticateUser

/-!
# Refreshing a token

`src/application/use-cases/refresh-token.use-case.ts`, over the ports for sessions, users and
tokens.  Nothing in the repository stands behind the port for sessions: it is a parameter, with
what the names of its operations promise.

* `SessionPort`, `SessionRepository` — the operations on sessions, and what carries them out.
* `SessionRepository.Lawful` — each operation does what it says, or fails and changes nothing.
* `RefreshTokenUseCase.execute` — the use case.
-/

namespace EnterpriseSystem.Application

open Identity Relational Concurrency

/-! ## Sessions -/

/-- `SessionSnapshot`. -/
structure SessionSnapshot where
  id : String
  userId : String
  refreshToken : String
  userAgent : Option String
  ipAddress : Option String
  expiresAt : Date
  createdAt : Date
  revokedAt : Option Date
  deriving DecidableEq

/-- The operations of `SessionRepository` that the use case awaits. -/
inductive SessionPort where
  | findByRefreshToken (refreshToken : String)
  | create (session : NewSession)
  | revoke (id : String)
  | revokeAllForUser (userId : String)

/-- What an operation answers. -/
def SessionPort.Ans : SessionPort → Type
  | findByRefreshToken _ => Option SessionSnapshot
  | create _ => SessionSnapshot
  | revoke _ => Unit
  | revokeAllForUser _ => ℕ

/-- `SessionRepository`: how the operations act on a store, and the sessions in it. -/
structure SessionRepository (S : Type) where
  exec : (o : SessionPort) → S → Except Thrown o.Ans × S
  get? : S → String → Option SessionSnapshot

/-- The session is one of the store. -/
def SessionRepository.Holds {S : Type} (repo : SessionRepository S) (s : S)
    (x : SessionSnapshot) : Prop :=
  repo.get? s x.id = some x

/-- The session after its revocation. -/
def SessionSnapshot.revoke (x : SessionSnapshot) (revokedAt : Date) : SessionSnapshot :=
  { x with revokedAt := some revokedAt }

@[simp] theorem SessionSnapshot.id_revoke (x : SessionSnapshot) (revokedAt : Date) :
    (x.revoke revokedAt).id = x.id := rfl

/-- **What the operations promise**: each does what its name says, or it fails and the sessions
stay as they are. -/
structure SessionRepository.Lawful {S : Type} (repo : SessionRepository S) : Prop where
  /-- Sessions are kept under their ids. -/
  key : ∀ s id x, repo.get? s id = some x → x.id = id
  /-- No two sessions have the same refresh token. -/
  unique : ∀ s x y, repo.Holds s x → repo.Holds s y → x.refreshToken = y.refreshToken → x = y
  find_keeps : ∀ s refreshToken,
    repo.get? (repo.exec (.findByRefreshToken refreshToken) s).2 = repo.get? s
  find_some : ∀ s refreshToken x s',
    repo.exec (.findByRefreshToken refreshToken) s = (.ok (some x), s') →
      repo.Holds s x ∧ x.refreshToken = refreshToken
  find_none : ∀ s refreshToken s', repo.exec (.findByRefreshToken refreshToken) s = (.ok none, s') →
    ∀ x, repo.Holds s x → x.refreshToken ≠ refreshToken
  create_ok : ∀ s session x s', repo.exec (.create session) s = (.ok x, s') →
    repo.get? s x.id = none ∧
      repo.get? s' = Function.update (repo.get? s) x.id (some x) ∧
      x.userId = session.userId ∧ x.refreshToken = session.refreshToken ∧
      x.expiresAt = session.expiresAt ∧ x.revokedAt = none
  revoke_ok : ∀ s id s', repo.exec (.revoke id) s = (.ok (), s') →
    ∃ revokedAt, repo.get? s' =
      Function.update (repo.get? s) id ((repo.get? s id).map (·.revoke revokedAt))
  revokeAll_ok : ∀ s userId n s', repo.exec (.revokeAllForUser userId) s = (.ok n, s') →
    ∃ revokedAt, repo.get? s' = fun id => (repo.get? s id).map fun x =>
      if x.userId = userId ∧ x.revokedAt = none then x.revoke revokedAt else x
  error_keeps : ∀ o s e s', repo.exec o s = (.error e, s') → repo.get? s' = repo.get? s

/-! ## Operations -/

/-- The operations that the use case awaits. -/
inductive RefreshOp where
  | user (o : UserOp)
  | session (o : SessionPort)

/-- What an operation answers. -/
def RefreshOp.Ans : RefreshOp → Type
  | user o => o.Ans
  | session o => o.Ans

/-- An asynchronous function of the use case. -/
abbrev RefreshTask (α : Type) : Type := Task RefreshOp RefreshOp.Ans Thrown α

/-- The users, and the store of the sessions. -/
structure RefreshWorld (S : Type) where
  users : UserWorld
  sessions : S

/-- One operation. -/
def RefreshOp.exec {S : Type} (host : Host) (repo : SessionRepository S) :
    (o : RefreshOp) → RefreshWorld S → Except Thrown o.Ans × RefreshWorld S
  | .user o, w => ((o.exec host w.users).1, { w with users := (o.exec host w.users).2 })
  | .session o, w => ((repo.exec o w.sessions).1, { w with sessions := (repo.exec o w.sessions).2 })

namespace RefreshTask

/-- A function of the user domain. -/
def user {α : Type} (p : UserTask α) : RefreshTask α :=
  ExceptT.mk ((ExceptT.run p).translate fun o => Prog.perform (RefreshOp.user o))

/-- `this.sessionRepo.findByRefreshToken(refreshToken)`. -/
def findByRefreshToken (refreshToken : String) : RefreshTask (Option SessionSnapshot) :=
  Task.await (RefreshOp.session (.findByRefreshToken refreshToken))

/-- `this.sessionRepo.create(session)`. -/
def create (session : NewSession) : RefreshTask SessionSnapshot :=
  Task.await (RefreshOp.session (.create session))

/-- `this.sessionRepo.revoke(id)`. -/
def revoke (id : String) : RefreshTask Unit := Task.await (RefreshOp.session (.revoke id))

/-- `this.sessionRepo.revokeAllForUser(userId)`. -/
def revokeAllForUser (userId : String) : RefreshTask ℕ :=
  Task.await (RefreshOp.session (.revokeAllForUser userId))

end RefreshTask

/-! ## The use case -/

/-- The parameters of the use case. -/
structure Refresh where
  refreshToken : String
  userAgent : Option String
  ipAddress : Option String

/-- What the use case reads besides them: the time when it looks at the expiry, and the refresh
token and the time of the new session. -/
structure RefreshMoment where
  checked : Date
  refreshToken : String
  issued : Date

namespace RefreshTokenUseCase

def tokenInvalid : DomainError := ⟨"TOKEN_INVALID", "Invalid refresh token.", none⟩

def refreshTokenRevoked : DomainError :=
  ⟨"REFRESH_TOKEN_REVOKED",
    "This refresh token has been revoked. All sessions have been terminated for security.", none⟩

def tokenExpired : DomainError :=
  ⟨"TOKEN_EXPIRED", "Refresh token has expired. Please log in again.", none⟩

def userInactive : DomainError := ⟨"USER_INACTIVE", "This account is no longer active.", none⟩

/-- The failure for a user that is gone, with the metadata of the exception. -/
def userGone (error : Thrown) : DomainError :=
  ⟨"USER_NOT_FOUND", "User associated with this token no longer exists.",
    (domainError? error).bind DomainError.details⟩

/-- Step 4: the user, or the failure to return. -/
def loadUser (host : Host) (userId : String) : RefreshTask (Except DomainError User) :=
  tryCatch (do
    let id ← Task.ofExcept (UniqueId.fromString userId)
    let user ← RefreshTask.user (UserRepositoryImpl.findById host id)
    return .ok user) fun error => match error with
      | .userNotFound .. => return .error (userGone error)
      | error => throw error

/-- Steps 5 and 6. -/
def rotate (tokens : TokenService) (params : Refresh) (m : RefreshMoment)
    (session : SessionSnapshot) (user : User) : RefreshTask (Result AuthTokens) := do
  RefreshTask.revoke session.id
  let accessToken := tokens.generateAccessToken user.id.value user.email.value []
  let expiresAt := m.issued + (tokens.getRefreshTokenTtl : ℤ) * 1000
  let _ ← RefreshTask.create ⟨user.id.value, m.refreshToken,
    params.userAgent.or session.userAgent, params.ipAddress.or session.ipAddress, expiresAt⟩
  return .ok ⟨accessToken, m.refreshToken, tokens.getAccessTokenTtl, "Bearer",
    ⟨user.id.value, user.email.value, user.fullName⟩⟩

/-- `execute`. -/
def execute (host : Host) (tokens : TokenService) (params : Refresh) (m : RefreshMoment) :
    RefreshTask (Result AuthTokens) := do
  match ← RefreshTask.findByRefreshToken params.refreshToken with
  | none => return .fail tokenInvalid
  | some session =>
    if session.revokedAt.isSome then
      let _ ← RefreshTask.revokeAllForUser session.userId
      return .fail refreshTokenRevoked
    else if session.expiresAt < m.checked then
      return .fail tokenExpired
    else
      match ← loadUser host session.userId with
      | .error failure => return .fail failure
      | .ok user =>
        if user.isActive then rotate tokens params m session user
        else return .fail userInactive

end RefreshTokenUseCase

end EnterpriseSystem.Application
