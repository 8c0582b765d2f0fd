import EnterpriseSystem.Authentication.Logout
import EnterpriseSystem.Base.Reactive

/-!
# Histories of sessions

Calls of `AuthService` and of `JwtStrategy.validate` one after the other, each with
surroundings of its own.

* `Surroundings`, `AuthCall`, `authMachine` — what is around a call, the calls, and the
  sessions under them.
* `Issues`, `RevokedIn` — a call issues an access token together with a session; a session is
  revoked.
* `validate_throws_iff` — when an access token is refused.
* `revocationHolds_iff` — an access token is refused once its session is revoked, exactly when
  nothing else that it is checked against is in order.
-/

namespace EnterpriseSystem.Authentication

open Identity Relational Concurrency Reactive

/-! ## Calls -/

/-- What is around a call: the users, the clock of the database, and for the number of an
operation what is generated there and whether it fails. -/
structure Surroundings where
  users : DbUuid → Option Account
  clock : Date
  ids : ℕ → DbUuid
  salts : ℕ → String
  faults : ℕ → Bool

/-- The world of a call. -/
def Surroundings.world (e : Surroundings) (sessions : Table Session.id) : SessionWorld :=
  { sessions := sessions, users := e.users, clock := e.clock, ids := e.ids, salts := e.salts,
    faults := e.faults, performed := 0 }

inductive AuthCall where
  | generateTokenPair (userId email : String) (roles : List String)
      (userAgent ipAddress : Option String) (draw : Draw)
  | refreshTokens (refreshToken : String) (userAgent ipAddress : Option String)
      (rotation : AuthService.Rotation)
  | revokeToken (userId : String) (refreshToken : Option String) (now : Date)
  | revokeAllTokens (userId : String) (now : Date)
  | cleanupExpiredSessions (now : Date)
  | validate (payload : JwtPayload)

/-- What a call returns. -/
inductive AuthAnswer where
  | pair (pair : TokenPair)
  | done
  | count (n : ℕ)
  | user (user : AuthenticatedUser)
  deriving DecidableEq

/-- What a call does. -/
def AuthCall.task (config : AuthConfig) : AuthCall → SessionTask AuthAnswer
  | generateTokenPair userId email roles userAgent ipAddress draw => do
    return .pair (← AuthService.generateTokenPair config userId email roles userAgent ipAddress draw)
  | refreshTokens refreshToken userAgent ipAddress rotation => do
    return .pair (← AuthService.refreshTokens config refreshToken userAgent ipAddress rotation)
  | revokeToken userId refreshToken now => do
    AuthService.revokeToken userId refreshToken now
    return .done
  | revokeAllTokens userId now => do
    return .count (← AuthService.revokeAllTokens userId now)
  | cleanupExpiredSessions now => do
    return .count (← AuthService.cleanupExpiredSessions now)
  | validate payload => do
    return .user (← JwtStrategy.validate payload)

section

variable (host : SessionHost) (config : AuthConfig)

/-- The sessions under calls in their surroundings. -/
def authMachine :
    Machine (Table Session.id) (AuthCall × Surroundings) (Except AuthError AuthAnswer) :=
  fun sessions entry =>
    let r := Task.run (SessionOp.exec host) (entry.1.task config) (entry.2.world sessions)
    (r.1, r.2.sessions)

/-- The sessions after a history. -/
def sessionsAfter (sessions : Table Session.id) (history : List (AuthCall × Surroundings)) :
    Table Session.id :=
  (authMachine host config).after sessions history

/-! ## Access tokens -/

/-- The call returns a pair with this access token, and makes this session. -/
def Issues (sessions : Table Session.id) (entry : AuthCall × Surroundings) (payload : JwtPayload)
    (id : DbUuid) : Prop :=
  (∃ pair, (authMachine host config sessions entry).1 = .ok (.pair pair) ∧
      pair.accessToken = payload) ∧
    sessions.get? id = none ∧ (authMachine host config sessions entry).2.get? id ≠ none

/-- The session has been revoked. -/
def RevokedIn (sessions : Table Session.id) (id : DbUuid) : Prop :=
  ∃ s, sessions.get? id = some s ∧ s.revokedAt ≠ none

/-- **Revocation holds** along a history: once the session that came with an access token is
revoked, every later check of the token throws. -/
def RevocationHolds (sessions : Table Session.id) (history : List (AuthCall × Surroundings)) :
    Prop :=
  ∀ pre issue mid rest payload e post id,
    history = pre ++ issue :: (mid ++ (rest ++ (.validate payload, e) :: post)) →
      Issues host config (sessionsAfter host config sessions pre) issue payload id →
        RevokedIn (sessionsAfter host config sessions (pre ++ issue :: mid)) id →
          ∃ error, (authMachine host config
            (sessionsAfter host config sessions (pre ++ issue :: (mid ++ rest)))
              (.validate payload, e)).1 = .error error

/-- Something that an access token is checked against is not in order: its user has no
unrevoked session, or is not there, or is not active, or one of the two queries fails. -/
def Rejected (sessions : Table Session.id) (payload : JwtPayload) (e : Surroundings) : Prop :=
  SignedOut host payload.sub (e.world sessions) ∨ e.faults 0 = true ∨ e.faults 1 = true ∨
    ∀ userId account, host.uuid? payload.sub = some userId → e.users userId = some account →
      account.status ≠ .active

variable {host : SessionHost} {config : AuthConfig}

/-! ### Queries -/

theorem wellTyped_iff {userId : String} :
    SessionWhere.wellTyped host { userId := userId, revoked := false } = true ↔
      ∃ user, host.uuid? userId = some user := by
  simp [SessionWhere.wellTyped, Option.isSome_iff_exists]

/-- What a task answers, wrapped. -/
theorem run_wrap {α β : Type} (p : SessionTask α) (f : α → β) (w : SessionWorld) :
    Task.run (SessionOp.exec host) (p >>= fun a => pure (f a)) w =
      ((Task.run (SessionOp.exec host) p w).1.map f, (Task.run (SessionOp.exec host) p w).2) := by
  rw [Task.run_bind]
  rcases Task.run (SessionOp.exec host) p w with ⟨_ | _, _⟩ <;> rfl

/-- A call that wraps what a task answers. -/
theorem authMachine_of_task (host : SessionHost) {α : Type} {call : AuthCall} {p : SessionTask α} {f : α → AuthAnswer}
    (hcall : call.task config = p >>= fun a => pure (f a)) (sessions : Table Session.id)
    (e : Surroundings) :
    authMachine host config sessions (call, e) =
      ((Task.run (SessionOp.exec host) p (e.world sessions)).1.map f,
        (Task.run (SessionOp.exec host) p (e.world sessions)).2.sessions) := by
  show ((Task.run (SessionOp.exec host) (call.task config) (e.world sessions)).1,
    (Task.run (SessionOp.exec host) (call.task config) (e.world sessions)).2.sessions) = _
  rw [hcall, run_wrap]

/-- **An access token is refused** exactly when something that it is checked against is not
in order. -/
theorem validate_throws_iff (sessions : Table Session.id) (payload : JwtPayload)
    (e : Surroundings) :
    (∃ error, (authMachine host config sessions (.validate payload, e)).1 = .error error) ↔
      Rejected host sessions payload e := by
  have hfirst := run_findFirst host { userId := payload.sub, revoked := false }
    (e.world sessions)
  have huser := run_findUser host payload.sub (e.world sessions).next
  have hzero : (e.world sessions).down = e.faults 0 := rfl
  have hone : (e.world sessions).next.down = e.faults 1 := rfl
  have husers : (e.world sessions).next.users = e.users := rfl
  rw [hzero] at hfirst
  rw [hone, husers] at huser
  show (∃ error, (Task.run (SessionOp.exec host) (JwtStrategy.validate payload >>= fun user =>
    pure (AuthAnswer.user user)) (e.world sessions)).1 = .error error) ↔ _
  rw [run_wrap, JwtStrategy.validate, Rejected]
  by_cases hfault : e.faults 0 = true
  · rw [if_pos hfault] at hfirst
    rw [Task.run_bind_of_error _ hfirst]
    exact iff_of_true ⟨_, rfl⟩ (.inr (.inl hfault))
  rw [if_neg hfault] at hfirst
  by_cases hwell : SessionWhere.wellTyped host { userId := payload.sub, revoked := false } = true
  · rw [if_pos hwell] at hfirst
    obtain ⟨user, hsub⟩ := wellTyped_iff.1 hwell
    cases hfound : (e.world sessions).sessions.rows.find?
        (SessionWhere.selects host { userId := payload.sub, revoked := false }) with
    | none =>
      rw [hfound] at hfirst
      rw [Task.run_bind_of_ok _ hfirst]
      refine iff_of_true ⟨_, rfl⟩ (.inl fun s hopen => ?_)
      exact List.find?_eq_none.1 hfound s hopen.1 (selects_unrevoked.2 hopen.2)
    | some s =>
      have hopen : OpenSession host payload.sub (e.world sessions) s :=
        ⟨List.mem_of_find?_eq_some hfound, selects_unrevoked.1 (List.find?_some hfound)⟩
      have hin : ¬ SignedOut host payload.sub (e.world sessions) := fun h => h s hopen
      rw [hfound] at hfirst
      rw [Task.run_bind_of_ok _ hfirst, or_iff_right hin, or_iff_right hfault]
      by_cases hlater : e.faults 1 = true
      · rw [if_pos hlater] at huser
        rw [Task.run_bind_of_error _ huser]
        exact iff_of_true ⟨_, rfl⟩ (.inl hlater)
      rw [if_neg hlater, hsub] at huser
      rw [Task.run_bind_of_ok _ huser, or_iff_right hlater, hsub]
      cases haccount : e.users user with
      | none => exact iff_of_true ⟨_, rfl⟩ fun _ _ h h' => by cases h; rw [haccount] at h'; cases h'
      | some account =>
        by_cases hactive : account.status = .active
        · refine iff_of_false ?_ fun h => h user account rfl haccount hactive
          simp [hactive, Except.map]
        · refine iff_of_true ?_ ?_
          · simp [hactive, Except.map]
          · rintro _ _ ⟨⟩ hother
            obtain rfl := Option.some.inj (haccount.symm.trans hother)
            exact hactive
  · rw [if_neg hwell] at hfirst
    rw [Task.run_bind_of_error _ hfirst]
    exact iff_of_true ⟨_, rfl⟩
      (.inl fun s hopen => hwell (wellTyped_iff.2 ⟨_, hopen.2.1⟩))

/-- **Revocation holds** along a history exactly when, wherever an access token is checked
after its session was revoked, something else that it is checked against is not in order. -/
theorem revocationHolds_iff (sessions : Table Session.id)
    (history : List (AuthCall × Surroundings)) :
    RevocationHolds host config sessions history ↔
      ∀ pre issue mid rest payload e post id,
        history = pre ++ issue :: (mid ++ (rest ++ (.validate payload, e) :: post)) →
          Issues host config (sessionsAfter host config sessions pre) issue payload id →
            RevokedIn (sessionsAfter host config sessions (pre ++ issue :: mid)) id →
              Rejected host (sessionsAfter host config sessions (pre ++ issue :: (mid ++ rest)))
                payload e := by
  simp only [RevocationHolds, validate_throws_iff]

end

/-! ## Two devices -/

/-- The key of a second session. -/
def tablet : DbUuid :=
  ⟨"00000000-0000-4000-8000-000000000012", by decide +kernel, by decide +kernel⟩

/-- The surroundings of a call in which nothing fails. -/
def calm (id : DbUuid) : Surroundings where
  users := hoppersWorld.users
  clock := 0
  ids := fun _ => id
  salts := fun _ => ""
  faults := fun _ => false

/-- Fifteen minutes, and seven days. -/
def weekly : AuthConfig where
  accessTokenTtl := 900
  expiry now := now + 604800000

/-- A sign-in. -/
def signIn (jti value : String) : AuthCall :=
  .generateTokenPair hopper.text "hopper@example.com" [] none none ⟨jti, value, 0⟩

/-- Two sign-ins, a logout of the first device, and a request with its access token. -/
def twoDevices : List (AuthCall × Surroundings) :=
  [(signIn "j1" "a", calm hopper), (signIn "j2" "b", calm tablet),
    (.revokeToken hopper.text (some (hopper.text ++ ".a")) 1, calm hopper),
    (.validate ⟨hopper.text, "hopper@example.com", [], "j1"⟩, calm hopper)]

/-- **The other device** keeps the access token of the first one alive. -/
theorem not_revocationHolds :
    ¬ ∀ (host : SessionHost) (config : AuthConfig) (sessions : Table Session.id)
      (history : List (AuthCall × Surroundings)), RevocationHolds host config sessions history := by
  intro h
  have hissues : Issues plainSessionHost weekly (Table.empty Session.id)
      (signIn "j1" "a", calm hopper) ⟨hopper.text, "hopper@example.com", [], "j1"⟩ hopper :=
    ⟨⟨⟨⟨hopper.text, "hopper@example.com", [], "j1"⟩, hopper.text ++ ".a", 900⟩, by decide +kernel,
      rfl⟩, rfl, by decide +kernel⟩
  have hrevoked : RevokedIn (sessionsAfter plainSessionHost weekly (Table.empty Session.id)
      (twoDevices.take 3)) hopper :=
    ⟨{ hoppersSession with refreshToken := "a", revokedAt := some 1 }, by decide +kernel, nofun⟩
  obtain ⟨error, herror⟩ := h plainSessionHost weekly (Table.empty Session.id) twoDevices []
    _ (twoDevices.tail.take 2) [] _ _ [] hopper rfl hissues hrevoked
  have hanswer : (authMachine plainSessionHost weekly
      (sessionsAfter plainSessionHost weekly (Table.empty Session.id) (twoDevices.take 3))
      (.validate ⟨hopper.text, "hopper@example.com", [], "j1"⟩, calm hopper)).1 =
        .ok (.user ⟨hopper, "hopper@example.com", [], []⟩) := by
    decide +kernel
  exact nomatch hanswer.symm.trans herror

end EnterpriseSystem.Authentication
