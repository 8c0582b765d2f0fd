import EnterpriseSystem.Authentication.Sessions

/-!
# Tokens and sessions

`src/security/authentication/auth.service.ts` and `jwt.strategy.ts`.

* `AuthService.generateTokenPair`, `refreshTokens`, `revokeToken`,
  `revokeAllTokens`, `cleanupExpiredSessions` — the life of a session.
* `JwtStrategy.validate` — what an access token is checked against.
* `run_firstMatch_eq_some`, `run_firstMatch_eq_none` — what the loop over the hashes
  finds.
-/

namespace EnterpriseSystem.Authentication

open Identity Relational Concurrency

/-! ## Tokens -/

/-- What an access token says. -/
structure JwtPayload where
  sub : String
  email : String
  roles : List String
  jti : String
  deriving DecidableEq

/-- `TokenPair`; the access token is given by what it says. -/
structure TokenPair where
  accessToken : JwtPayload
  refreshToken : String
  expiresIn : ℕ
  deriving DecidableEq

/-- The configuration, and `setDate(getDate() + refreshTokenTtlDays)` in the time zone of
the process. -/
structure AuthConfig where
  accessTokenTtl : ℕ
  expiry : Date → Date

/-- What a new pair draws at random, and the time when its session is made. -/
structure Draw where
  jti : String
  refreshTokenValue : String
  now : Date

/-- `refreshToken.split('.')`. -/
def splitDots (refreshToken : String) : List String :=
  (refreshToken.toList.splitOn '.').map String.ofList

/-- A part of the token, when it is there and not empty. -/
def tokenPart (i : ℕ) (refreshToken : String) : Option String :=
  (splitDots refreshToken)[i]?.filter (· ≠ "")

/-- The user id in front. -/
def userPart (refreshToken : String) : Option String := tokenPart 0 refreshToken

/-- The random part behind the first dot. -/
def valuePart (refreshToken : String) : Option String := tokenPart 1 refreshToken

namespace AuthService

open SessionTask

/-- `generateTokenPair`. -/
def generateTokenPair (config : AuthConfig) (userId email : String) (roles : List String)
    (userAgent ipAddress : Option String) (d : Draw) : SessionTask TokenPair := do
  let refreshTokenHash ← bcryptHash d.refreshTokenValue
  let _ ← create
    { userId := userId
      refreshToken := refreshTokenHash
      userAgent := userAgent.map fun s => String.ofList (s.toList.take 512)
      ipAddress := ipAddress
      expiresAt := config.expiry d.now }
  return { accessToken := ⟨userId, email, roles, d.jti⟩,
           refreshToken := userId ++ "." ++ d.refreshTokenValue,
           expiresIn := config.accessTokenTtl }

/-- The loop over the sessions, up to the one whose hash matches. -/
def firstMatch (tokenValue : String) : List Session → SessionTask (Option Session)
  | [] => return none
  | session :: sessions => do
    let isMatch ← bcryptCompare tokenValue session.refreshToken
    if isMatch then return some session else firstMatch tokenValue sessions

/-- A refresh token that has not two parts. -/
def tokenInvalid : AuthError :=
  .unauthorized ⟨"https://enterprise.system/errors/token-invalid", "Invalid Refresh Token", 401,
    "The refresh token format is invalid.", "TOKEN_INVALID"⟩

/-- A refresh token that matches no session. -/
def tokenRevoked : AuthError :=
  .unauthorized ⟨"https://enterprise.system/errors/token-revoked", "Refresh Token Revoked", 401,
    "This refresh token has been revoked due to suspicious activity. Please log in again.",
    "REFRESH_TOKEN_REVOKED"⟩

/-- A user that is gone, or not active. -/
def accountInactive : AuthError :=
  .unauthorized ⟨"https://enterprise.system/errors/account-inactive", "Account Inactive", 401,
    "Your account is no longer active.", "USER_INACTIVE"⟩

/-- The readings of the clock in `refreshTokens`, and what the new pair draws. -/
structure Rotation where
  queried : Date
  revoked : Date
  draw : Draw

/-- `refreshTokens`. -/
def refreshTokens (config : AuthConfig) (refreshToken : String)
    (userAgent ipAddress : Option String) (m : Rotation) : SessionTask TokenPair := do
  match userPart refreshToken, valuePart refreshToken with
  | some userId, some tokenValue =>
    let sessions ← findMany { userId := userId, revoked := false, expiresAfter := m.queried }
    match ← firstMatch tokenValue sessions with
    | none =>
      let _ ← updateMany { userId := userId, revoked := false } m.revoked
      throw tokenRevoked
    | some session =>
      let _ ← update session.id m.revoked
      match ← findUser userId with
      | some user =>
        if user.status = .active then
          generateTokenPair config userId user.email (user.roles.map Role.name) userAgent
            ipAddress m.draw
        else throw accountInactive
      | none => throw accountInactive
  | _, _ => throw tokenInvalid

/-- `revokeToken`; `now` is its one reading of the clock. -/
def revokeToken (userId : String) (refreshToken : Option String) (now : Date) :
    SessionTask Unit := do
  let session ← match refreshToken.bind valuePart with
    | some tokenValue => do
      let sessions ← findMany { userId := userId, revoked := false }
      firstMatch tokenValue sessions
    | none => pure none
  match session with
  | some session =>
    let _ ← update session.id now
  | none =>
    let _ ← updateMany { userId := userId, revoked := false } now

/-- `revokeAllTokens`. -/
def revokeAllTokens (userId : String) (now : Date) : SessionTask ℕ :=
  updateMany { userId := userId, revoked := false } now

/-- `cleanupExpiredSessions`. -/
def cleanupExpiredSessions (now : Date) : SessionTask ℕ :=
  deleteMany { expiresBefore := now, revoked := true }

end AuthService

namespace AuthController

/-- `POST /auth/logout` of an authenticated user. -/
def logout (user : Account) (refreshToken : Option String) (now : Date) : SessionTask Unit :=
  AuthService.revokeToken user.id.text refreshToken now

end AuthController

/-! ## Access tokens -/

/-- `AuthenticatedUser`. -/
structure AuthenticatedUser where
  id : DbUuid
  email : String
  roles : List String
  permissions : List String
  deriving DecidableEq

namespace JwtStrategy

open SessionTask

/-- A token of a user without a session. -/
def tokenRevoked : AuthError :=
  .unauthorized ⟨"https://enterprise.system/errors/token-revoked", "Token Revoked", 401,
    "Your session has been revoked. Please log in again.", "TOKEN_INVALID"⟩

def userNotFound : AuthError :=
  .unauthorized ⟨"https://enterprise.system/errors/user-not-found", "User Not Found", 401,
    "The user associated with this token no longer exists.", "USER_NOT_FOUND"⟩

/-- `user.status.toLowerCase()`. -/
def statusText : UserStatus → String
  | .active => "active"
  | .inactive => "inactive"
  | .suspended => "suspended"
  | .pendingVerification => "pending_verification"

def accountInactive (status : UserStatus) : AuthError :=
  .unauthorized ⟨"https://enterprise.system/errors/account-inactive", "Account Inactive", 401,
    "Account is " ++ statusText status ++ ". Contact support for assistance.", "USER_INACTIVE"⟩

/-- `validate`. -/
def validate (payload : JwtPayload) : SessionTask AuthenticatedUser := do
  match ← findFirst { userId := payload.sub, revoked := false } with
  | none => throw tokenRevoked
  | some _ =>
    match ← findUser payload.sub with
    | none => throw userNotFound
    | some user =>
      if user.status = .active then
        return { id := user.id, email := user.email, roles := user.roles.map Role.name,
                 permissions := (user.roles.flatMap Role.permissions).eraseDups }
      else throw (accountInactive user.status)

end JwtStrategy

/-! ## The loop over the hashes -/

section

variable {host : SessionHost} {w w' : SessionWorld}

/-- The unrevoked sessions of a user, as the queries select them. -/
theorem selects_unrevoked {userId : String} {s : Session} :
    SessionWhere.selects host { userId := userId, revoked := false } s = true ↔
      host.uuid? userId = some s.userId ∧ s.revokedAt = none := by
  simp [SessionWhere.selects]

/-- An operation that does not fail on its own account. -/
theorem exec_of_up (h : w.down = false) (o : SessionOp) : o.exec host w = o.perform host w := by
  rw [SessionOp.exec, h]
  rfl

/-- An operation that fails on its own account. -/
theorem exec_of_down (h : w.down = true) (o : SessionOp) :
    o.exec host w = (.error unreachable, w.next) := by
  rw [SessionOp.exec, h]
  rfl

/-- What a query for sessions answers. -/
theorem run_findMany (host : SessionHost) (query : SessionWhere) (w : SessionWorld) :
    Task.run (SessionOp.exec host) (SessionTask.findMany query) w =
      (if w.down then .error unreachable
      else if query.wellTyped host then .ok (w.sessions.rows.filter (query.selects host))
      else .error malformed, w.next) := by
  show (SessionOp.findMany query).exec host w = _
  cases hdown : w.down with
  | true => exact exec_of_down hdown _
  | false =>
    rw [exec_of_up hdown, SessionOp.perform]
    cases query.wellTyped host <;> rfl

/-- What a query for one session answers. -/
theorem run_findFirst (host : SessionHost) (query : SessionWhere) (w : SessionWorld) :
    Task.run (SessionOp.exec host) (SessionTask.findFirst query) w =
      (if w.down then .error unreachable
      else if query.wellTyped host then .ok (w.sessions.rows.find? (query.selects host))
      else .error malformed, w.next) := by
  show (SessionOp.findFirst query).exec host w = _
  cases hdown : w.down with
  | true => exact exec_of_down hdown _
  | false =>
    rw [exec_of_up hdown, SessionOp.perform]
    cases query.wellTyped host <;> rfl

/-- What the query for the user answers. -/
theorem run_findUser (host : SessionHost) (id : String) (w : SessionWorld) :
    Task.run (SessionOp.exec host) (SessionTask.findUser id) w =
      (if w.down then .error unreachable
      else match host.uuid? id with
        | none => .error malformed
        | some userId => .ok (w.users userId), w.next) := by
  show (SessionOp.findUser id).exec host w = _
  cases hdown : w.down with
  | true => exact exec_of_down hdown _
  | false =>
    rw [exec_of_up hdown, SessionOp.perform]
    cases host.uuid? id <;> rfl

/-- Comparing changes no session. -/
theorem exec_bcryptCompare (value hash : String) :
    (SessionOp.bcryptCompare value hash).exec host w =
      (if w.down then .error unreachable else .ok (host.bcryptCompare value hash), w.next) := by
  cases hdown : w.down with
  | true => rw [exec_of_down hdown, if_pos rfl]
  | false =>
    rw [exec_of_up hdown]
    rfl

theorem preserves_firstMatch {γ : Type} {f : SessionWorld → γ} (hnext : ∀ w, f w.next = f w)
    (value : String) (sessions : List Session) :
    Task.Preserves (SessionOp.exec host) f (AuthService.firstMatch value sessions) := by
  induction sessions with
  | nil => exact .pure none
  | cons s sessions ih =>
    refine .bind (fun w => ?_) fun isMatch => .ite (.pure (some s)) ih
    show f ((SessionOp.bcryptCompare value s.refreshToken).exec host w).2 = f w
    rw [exec_bcryptCompare]
    exact hnext w

/-- The first turn of the loop. -/
theorem run_firstMatch_cons (value : String) (s : Session) (sessions : List Session) :
    Task.run (SessionOp.exec host) (AuthService.firstMatch value (s :: sessions)) w =
      if w.down then (.error unreachable, w.next)
      else if host.bcryptCompare value s.refreshToken then (.ok (some s), w.next)
      else Task.run (SessionOp.exec host) (AuthService.firstMatch value sessions) w.next := by
  have hcompare : Task.run (SessionOp.exec host)
      (SessionTask.bcryptCompare value s.refreshToken) w = _ := exec_bcryptCompare value s.refreshToken
  rw [AuthService.firstMatch, Task.run_bind, hcompare]
  cases w.down with
  | true => rfl
  | false => cases host.bcryptCompare value s.refreshToken <;> rfl

/-- What the loop finds is one of the sessions, and its hash matches. -/
theorem run_firstMatch_eq_some {value : String} {sessions : List Session} {s : Session}
    (h : (Task.run (SessionOp.exec host) (AuthService.firstMatch value sessions) w).1 = .ok (some s)) :
    s ∈ sessions ∧ host.bcryptCompare value s.refreshToken = true := by
  induction sessions generalizing w with
  | nil => exact nomatch h
  | cons t sessions ih =>
    rw [run_firstMatch_cons] at h
    split_ifs at h with hdown hmatch
    · obtain rfl : t = s := Option.some.inj (Except.ok.inj h)
      exact ⟨List.mem_cons_self, hmatch⟩
    · obtain ⟨hmem, hmatch⟩ := ih h
      exact ⟨List.mem_cons_of_mem t hmem, hmatch⟩

/-- **The loop finds nothing** exactly when no hash matches and no comparison fails. -/
theorem run_firstMatch_eq_none {value : String} {sessions : List Session} :
    (Task.run (SessionOp.exec host) (AuthService.firstMatch value sessions) w).1 = .ok none ↔
      (∀ s ∈ sessions, host.bcryptCompare value s.refreshToken = false) ∧
        ∀ k < sessions.length, w.faults (w.performed + k) = false := by
  induction sessions generalizing w with
  | nil => simp [AuthService.firstMatch]
  | cons s sessions ih =>
    rw [run_firstMatch_cons]
    split_ifs with hdown hmatch
    · refine iff_of_false nofun fun h => ?_
      have hfirst : w.down = false := h.2 0 (Nat.succ_pos _)
      exact nomatch hdown.symm.trans hfirst
    · refine iff_of_false nofun fun h => ?_
      exact nomatch hmatch.symm.trans (h.1 s List.mem_cons_self)
    · rw [ih]
      simp only [List.mem_cons, forall_eq_or_imp, Bool.not_eq_true] at hmatch ⊢
      rw [and_iff_right hmatch]
      refine and_congr_right fun _ => ⟨fun h k hk => ?_, fun h k hk => ?_⟩
      · cases k with
        | zero => exact Bool.not_eq_true _ ▸ hdown
        | succ k =>
          have hlater := h k (Nat.lt_of_succ_lt_succ hk)
          rwa [SessionWorld.next_faults, SessionWorld.next_performed, Nat.add_assoc,
            Nat.add_comm 1 k] at hlater
      · rw [SessionWorld.next_faults, SessionWorld.next_performed, Nat.add_assoc, Nat.add_comm 1 k]
        exact h (k + 1) (Nat.succ_lt_succ hk)

end

end EnterpriseSystem.Authentication
