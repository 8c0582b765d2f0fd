import EnterpriseSystem.Identity.Credentials
import EnterpriseSystem.Identity.UserDomainService

/-!
# Authenticating a user

`src/application/use-cases/authenticate-user.use-case.ts` and `result.ts`, over
`UserDomainService.authenticate` and the ports for sessions and tokens.

* `Result`, `DomainError`, `toFailure` — failures as values.
* `AuthOp`, `AuthWorld`, `AuthOp.exec` — the operations awaited.
* `AuthenticateUserUseCase.execute` and `run_execute` — the use case.
* `tellsNothing_iff` — when a wrong password tells nothing about whether there is
  an account.
-/

namespace EnterpriseSystem.Application

open Identity Relational Concurrency

/-! ## Results -/

/-- A violation of the constraints of one property. -/
structure FormattedError where
  field : String
  message : String
  constraints : List String
  deriving DecidableEq

/-- The `details` of an error. -/
inductive Details where
  | metadata (entries : List (String × String))
  | errors (formatted : List FormattedError)
  deriving DecidableEq

/-- `DomainError`. -/
structure DomainError where
  code : String
  message : String
  details : Option Details
  deriving DecidableEq

/-- `Result`. -/
inductive Result (α : Type) where
  | ok (value : α)
  | fail (error : DomainError)
  deriving DecidableEq

/-- The failure that a `DomainException` is converted to. -/
def domainError? : Thrown → Option DomainError
  | .userNotFound identifier identifierType =>
    some ⟨"USER_NOT_FOUND", (Thrown.userNotFound identifier identifierType).message,
      some (.metadata [("identifier", identifier), ("identifierType", identifierType)])⟩
  | .emailAlreadyExists email =>
    some ⟨"EMAIL_ALREADY_EXISTS", (Thrown.emailAlreadyExists email).message,
      some (.metadata [("email", email)])⟩
  | _ => none

/-- The outcome of a use case whose body has thrown. -/
def toFailure {α : Type} (error : Thrown) : Except Thrown (Result α) :=
  match domainError? error with
  | some failure => .ok (.fail failure)
  | none => .error error

/-! ## Operations -/

/-- What `sessionRepo.create` is given. -/
structure NewSession where
  userId : String
  refreshToken : String
  userAgent : Option String
  ipAddress : Option String
  expiresAt : Date
  deriving DecidableEq

/-- `UserAuthenticatedEvent`. -/
structure UserAuthenticatedEvent where
  eventId : UniqueId
  occurredAt : Date
  aggregateId : String
  sessionId : UniqueId
  ipAddress : Option String
  userAgent : Option String
  deriving DecidableEq

/-- The operations that the use case awaits. -/
inductive AuthOp where
  | user (o : UserOp)
  /-- `sessionRepo.create(session)`. -/
  | createSession (session : NewSession)
  /-- `eventPublisher.publish([event])`. -/
  | publish (event : UserAuthenticatedEvent)

/-- What an operation answers. -/
def AuthOp.Ans : AuthOp → Type
  | user o => o.Ans
  | createSession _ => Unit
  | publish _ => Unit

/-- An asynchronous function of the use case. -/
abbrev AuthTask (α : Type) : Type := Task AuthOp AuthOp.Ans Thrown α

/-- The users, the sessions and the events published. -/
structure AuthWorld where
  users : UserWorld
  sessions : List NewSession
  authenticated : List UserAuthenticatedEvent

/-- One operation. -/
def AuthOp.exec (host : Host) : (o : AuthOp) → AuthWorld → Except Thrown o.Ans × AuthWorld
  | .user o, a => ((o.exec host a.users).1, { a with users := (o.exec host a.users).2 })
  | .createSession session, a =>
    if a.users.down then (.error outage, { a with users := a.users.next })
    else (.ok (), { a with users := a.users.next, sessions := a.sessions ++ [session] })
  | .publish event, a =>
    if a.users.down then (.error outage, { a with users := a.users.next })
    else (.ok (), { a with users := a.users.next, authenticated := a.authenticated ++ [event] })

namespace AuthTask

/-- A function of the user domain. -/
def user {α : Type} (p : UserTask α) : AuthTask α :=
  ExceptT.mk ((ExceptT.run p).translate fun o => Prog.perform (AuthOp.user o))

/-- `this.sessionRepo.create(session)`. -/
def createSession (session : NewSession) : AuthTask Unit :=
  Task.await (AuthOp.createSession session)

/-- `this.eventPublisher.publish([event])`. -/
def publish (event : UserAuthenticatedEvent) : AuthTask Unit := Task.await (AuthOp.publish event)

section

variable (host : Host) (a : AuthWorld)

theorem run_user {α : Type} (p : UserTask α) :
    Task.run (AuthOp.exec host) (user p) a =
      ((Task.run (UserOp.exec host) p a.users).1,
        { a with users := (Task.run (UserOp.exec host) p a.users).2 }) := by
  obtain ⟨users, sessions, authenticated⟩ := a
  exact Prog.run_translate (fun w => (⟨w, sessions, authenticated⟩ : AuthWorld)) (fun _ _ => rfl)
    (ExceptT.run p) users

theorem run_createSession (session : NewSession) :
    Task.run (AuthOp.exec host) (createSession session) a =
      if a.users.down then (.error outage, { a with users := a.users.next })
      else (.ok (), { a with users := a.users.next, sessions := a.sessions ++ [session] }) := rfl

theorem run_publish (event : UserAuthenticatedEvent) :
    Task.run (AuthOp.exec host) (publish event) a =
      if a.users.down then (.error outage, { a with users := a.users.next })
      else (.ok (),
        { a with users := a.users.next, authenticated := a.authenticated ++ [event] }) := rfl

end

end AuthTask

/-! ## The use case -/

/-- `TokenService`, as far as it does not draw at random. -/
structure TokenService where
  generateAccessToken : (sub email : String) → (roles : List String) → String
  getAccessTokenTtl : ℕ
  getRefreshTokenTtl : ℕ

/-- The parameters of the use case. -/
structure Login where
  email : String
  password : String
  userAgent : Option String
  ipAddress : Option String

/-- What the use case reads besides them: the moment of the login, the refresh
token and the identifier it draws, the time of the session and the moment of the
event. -/
structure LoginMoment where
  login : Moment
  refreshToken : String
  sessionId : UniqueId
  issued : Date
  event : Moment

/-- The `user` of `AuthTokens`. -/
structure AuthenticatedUser where
  id : String
  email : String
  fullName : String
  deriving DecidableEq

/-- `AuthTokens`. -/
structure AuthTokens where
  accessToken : String
  refreshToken : String
  expiresIn : ℕ
  tokenType : String
  user : AuthenticatedUser
  deriving DecidableEq

namespace AuthenticateUserUseCase

/-- The failure for any wrong credentials. -/
def invalidCredentials : DomainError :=
  ⟨"INVALID_CREDENTIALS", "Invalid email or password.", none⟩

variable (host : Host) (tokens : TokenService) (params : Login) (m : LoginMoment)

/-- Steps 3 to 6. -/
def issue (user : User) : AuthTask (Result AuthTokens) := do
  let accessToken := tokens.generateAccessToken user.id.value user.email.value []
  let expiresAt := m.issued + (tokens.getRefreshTokenTtl : ℤ) * 1000
  AuthTask.createSession ⟨user.id.value, m.refreshToken, params.userAgent, params.ipAddress,
    expiresAt⟩
  tryCatch (AuthTask.publish ⟨m.event.eventId, m.event.now, user.id.value, m.sessionId,
    params.ipAddress, params.userAgent⟩) fun _ => return ()
  return .ok ⟨accessToken, m.refreshToken, tokens.getAccessTokenTtl, "Bearer",
    ⟨user.id.value, user.email.value, user.fullName⟩⟩

/-- `execute`; no code throws the `UserSuspendedException` it also catches. -/
def execute : AuthTask (Result AuthTokens) :=
  tryCatch (
    match Email.create host.toLowerCase params.email with
    | .error _ => return .fail invalidCredentials
    | .ok email => do
      match ← AuthTask.user (UserDomainService.authenticate host email params.password m.login) with
      | none => return .fail invalidCredentials
      | some user => issue tokens params m user) fun error => Task.ofExcept (toFailure error)

/-- Once the user is in, only the session can fail. -/
theorem run_issue (user : User) (a : AuthWorld) :
    ∃ result a', Task.run (AuthOp.exec host) (issue tokens params m user) a =
      if a.users.down then (.error outage, { a with users := a.users.next })
      else (.ok (.ok result), a') := by
  simp only [issue, Task.run_bind, Task.run_tryCatch, AuthTask.run_createSession,
    AuthTask.run_publish]
  cases a.users.down with
  | true => exact ⟨⟨"", "", 0, "", ⟨"", "", ""⟩⟩, a, rfl⟩
  | false =>
    simp only [Bool.false_eq_true, if_false]
    split_ifs
    · exact ⟨_, _, rfl⟩
    · exact ⟨_, _, rfl⟩

section

variable {host tokens params m}

/-- **The use case**: what comes of the address and of the domain service. -/
theorem run_execute (a : AuthWorld) :
    (Task.run (AuthOp.exec host) (execute host tokens params m) a).1 =
      match Email.create host.toLowerCase params.email with
      | .error _ => .ok (.fail invalidCredentials)
      | .ok email =>
        match Task.run (UserOp.exec host)
            (UserDomainService.authenticate host email params.password m.login) a.users with
        | (.error e, _) => toFailure e
        | (.ok none, _) => .ok (.fail invalidCredentials)
        | (.ok (some user), w) => match (Task.run (AuthOp.exec host) (issue tokens params m user)
            { a with users := w }).1 with
          | .ok result => .ok result
          | .error e => toFailure e := by
  unfold execute
  cases Email.create host.toLowerCase params.email with
  | error e => rfl
  | ok email =>
    simp only [Task.run_tryCatch, Task.run_bind, AuthTask.run_user, Task.run_ofExcept]
    rcases Task.run (UserOp.exec host)
      (UserDomainService.authenticate host email params.password m.login) a.users with ⟨r, w⟩
    rcases r with e | - | user
    · rfl
    · rfl
    · dsimp only
      rcases Task.run (AuthOp.exec host) (issue tokens params m user) { a with users := w }
        with ⟨r', a'⟩
      cases r' <;> rfl

end

end AuthenticateUserUseCase

/-! ## Whether there is an account -/

/-- The second table has one row more, the only one of its address. -/
structure DiffersBy (row : UserRow) (db db' : UserDb) : Prop where
  absent : ∀ r ∈ db.users.rows, r.email ≠ row.email
  rows : ∀ r, r ∈ db'.users.rows ↔ r ∈ db.users.rows ∨ r = row

section

variable {row : UserRow} {db db' : UserDb}

theorem DiffersBy.findByEmail?_absent (h : DiffersBy row db db') :
    db.findByEmail? row.email = none := by
  refine List.find?_eq_none.2 fun r hr => ?_
  simpa using h.absent r hr

theorem DiffersBy.findByEmail?_present (h : DiffersBy row db db') :
    db'.findByEmail? row.email = some row := by
  cases hfind : db'.findByEmail? row.email with
  | none =>
    have hnone := List.find?_eq_none.1 hfind row ((h.rows row).2 (.inr rfl))
    simp at hnone
  | some r =>
    have hemail : r.email = row.email := by simpa using List.find?_some hfind
    rcases (h.rows r).1 (List.mem_of_find?_eq_some hfind) with hr | rfl
    · exact absurd hemail (h.absent r hr)
    · rfl

end

/-- The world with another table. -/
def AuthWorld.withDb (a : AuthWorld) (db : UserDb) : AuthWorld :=
  { a with users := { a.users with db := db } }

/-- The use case has one outcome over both tables. -/
def SameOutcome (host : Host) (tokens : TokenService) (params : Login) (m : LoginMoment)
    (a : AuthWorld) (db db' : UserDb) : Prop :=
  (Task.run (AuthOp.exec host) (AuthenticateUserUseCase.execute host tokens params m)
    (a.withDb db)).1 =
  (Task.run (AuthOp.exec host) (AuthenticateUserUseCase.execute host tokens params m)
    (a.withDb db')).1

section

open UserDomainService AuthenticateUserUseCase

variable {host : Host} {tokens : TokenService} {params : Login} {m : LoginMoment} {a : AuthWorld}
variable {row : UserRow} {db db' : UserDb} {email : Email}

/-- Where no user is found, the credentials are invalid. -/
theorem run_execute_of_not_found (hemail : Email.create host.toLowerCase params.email = .ok email)
    (hnone : found host a.users email = none) :
    (Task.run (AuthOp.exec host) (execute host tokens params m) a).1 =
      .ok (.fail invalidCredentials) := by
  rw [run_execute, hemail]
  dsimp only
  rw [run_authenticate, run_loggedIn, hnone]

/-- Where one is found, the hasher throws for an empty password. -/
theorem run_execute_of_empty {user : User}
    (hemail : Email.create host.toLowerCase params.email = .ok email)
    (hsome : found host a.users email = some user) (hempty : params.password = "") :
    (Task.run (AuthOp.exec host) (execute host tokens params m) a).1 =
      .error (.error "Password to compare must be a non-empty string") := by
  rw [run_execute, hemail]
  dsimp only
  rw [run_authenticate, run_loggedIn, hsome]
  dsimp only
  rw [if_pos hempty]
  rfl

/-- For any other password that does not match, the credentials are invalid too. -/
theorem run_execute_of_wrong {user : User}
    (hemail : Email.create host.toLowerCase params.email = .ok email)
    (hsome : found host a.users email = some user) (hne : params.password ≠ "")
    (hwrong : host.bcryptCompare params.password (user.password.hashedValue.getD "") = false) :
    (Task.run (AuthOp.exec host) (execute host tokens params m) a).1 =
      .ok (.fail invalidCredentials) := by
  rw [run_execute, hemail]
  dsimp only
  rw [run_authenticate, run_loggedIn, hsome]
  dsimp only
  rw [if_neg hne, hwrong, Bool.and_false]
  rfl

/-- Where it matches, the entity refuses the login of a user who is not `ACTIVE`. -/
theorem run_execute_of_refused {user : User}
    (hemail : Email.create host.toLowerCase params.email = .ok email)
    (hsome : found host a.users email = some user) (hne : params.password ≠ "")
    (hup : a.users.next.down = false)
    (hmatch : host.bcryptCompare params.password (user.password.hashedValue.getD "") = true)
    (hstatus : user.status ≠ .active) :
    (Task.run (AuthOp.exec host) (execute host tokens params m) a).1 =
      .error (User.loginRefused user.status) := by
  rw [run_execute, hemail]
  dsimp only
  rw [run_authenticate, run_loggedIn, hsome]
  dsimp only
  rw [if_neg hne, hmatch, hup]
  simp only [Bool.not_false, Bool.and_self, Bool.true_eq_false, if_false, if_neg hstatus]
  rfl

/-- And otherwise the login is stored and a session opened. -/
theorem run_execute_of_right {user savedUser : User} {w : UserWorld}
    (hemail : Email.create host.toLowerCase params.email = .ok email)
    (hsome : found host a.users email = some user) (hne : params.password ≠ "")
    (hup : a.users.next.down = false)
    (hmatch : host.bcryptCompare params.password (user.password.hashedValue.getD "") = true)
    (hstatus : user.status = .active)
    (hsave : Task.run (UserOp.exec host) (UserRepositoryImpl.save host (user.loginRecorded m.login)
      m.login.now) a.users.next.next = (.ok savedUser, w)) (hup' : w.down = false) :
    ∃ result, (Task.run (AuthOp.exec host) (execute host tokens params m) a).1 = .ok result := by
  obtain ⟨result, a', hissue⟩ := run_issue host tokens params m savedUser { a with users := w }
  rw [run_execute, hemail]
  dsimp only
  rw [run_authenticate, run_loggedIn, hsome]
  dsimp only
  rw [if_neg hne, hmatch, hup]
  simp only [Bool.not_false, Bool.and_self, Bool.true_eq_false, if_false, if_pos hstatus, hsave,
    hissue, hup', Bool.false_eq_true]
  exact ⟨_, rfl⟩

end

/-- **No user enumeration** with a wrong password, exactly when it is not empty,
the address is rejected, the lookup fails or the row cannot be mapped: the hasher
throws for an empty password, and it is asked only where there is an account. -/
theorem tellsNothing_iff (host : Host) (tokens : TokenService) (params : Login) (m : LoginMoment)
    (a : AuthWorld) {row : UserRow} {db db' : UserDb} (hdiffers : DiffersBy row db db')
    (hrow : row.email = host.toLowerCase (trim params.email))
    (hwrong : host.bcryptCompare params.password row.passwordHash = false) :
    SameOutcome host tokens params m a db db' ↔
      params.password ≠ "" ∨ (∃ e, Email.create host.toLowerCase params.email = .error e) ∨
        a.users.down = true ∨ ¬ (isUuidV4 row.id.text = true ∧ row.passwordHash ≠ "") := by
  unfold SameOutcome
  cases hemail : Email.create host.toLowerCase params.email with
  | error e =>
    rw [AuthenticateUserUseCase.run_execute, AuthenticateUserUseCase.run_execute, hemail]
    exact iff_of_true rfl (.inr (.inl ⟨e, rfl⟩))
  | ok email =>
    have hvalue : email.value = row.email := (Email.create_eq_ok hemail).trans hrow.symm
    have habsent : UserDomainService.found host (a.withDb db).users email = none := by
      cases huser : UserDomainService.found host (a.withDb db).users email with
      | none => rfl
      | some user =>
        obtain ⟨-, r, hr, -⟩ := UserDomainService.found_eq_some.1 huser
        rw [hvalue] at hr
        exact nomatch hdiffers.findByEmail?_absent.symm.trans hr
    rw [run_execute_of_not_found hemail habsent]
    cases huser : UserDomainService.found host (a.withDb db').users email with
    | none =>
      rw [run_execute_of_not_found hemail huser]
      refine iff_of_true rfl (.inr (.inr ?_))
      by_contra hcond
      rw [not_or, not_not] at hcond
      obtain ⟨hup, hv4, hhash⟩ := hcond
      have hfound : (a.withDb db').users.db.findByEmail? email.value = some row := by
        rw [hvalue]
        exact hdiffers.findByEmail?_present
      exact nomatch huser.symm.trans (UserDomainService.found_eq_some.2
        ⟨Bool.not_eq_true _ ▸ hup, row, hfound, hv4, hhash, rfl⟩)
    | some user =>
      obtain ⟨hup, r, hr, hv4, hhash, rfl⟩ := UserDomainService.found_eq_some.1 huser
      rw [hvalue] at hr
      obtain rfl : row = r := Option.some.inj (hdiffers.findByEmail?_present.symm.trans hr)
      by_cases hempty : params.password = ""
      · rw [run_execute_of_empty hemail huser hempty]
        refine iff_of_false nofun ?_
        rintro (hne | ⟨e, he⟩ | hdown | hmap)
        · exact hne hempty
        · exact nomatch he
        · exact absurd (hup.symm.trans hdown) nofun
        · exact hmap ⟨hv4, hhash⟩
      · rw [run_execute_of_wrong hemail huser hempty hwrong]
        exact iff_of_true rfl (.inl hempty)

/-- A service for the runs on fixed inputs. -/
def plainTokens : TokenService := ⟨fun sub _ _ => "access." ++ sub, 900, 604800⟩

/-- The moment of a login, for the runs on fixed inputs. -/
def someLogin : LoginMoment := ⟨⟨1, grace⟩, "refresh", grace, 1, ⟨1, grace⟩⟩

/-- Her credentials, with some password. -/
def gracesLogin (password : String) : Login := ⟨"Grace@example.com ", password, none, none⟩

/-- A world whose table does not matter. -/
def authWorld : AuthWorld := ⟨calmWorld emptyDb, [], []⟩

theorem differsBy_gracesRow : DiffersBy gracesRow emptyDb gracesDb where
  absent _ hr := nomatch hr
  rows r := by
    show r ∈ [gracesRow] ↔ r ∈ [] ∨ r = gracesRow
    simp

/-- A wrong password that is not empty. -/
theorem tellsNothing_grace :
    SameOutcome plainHost plainTokens (gracesLogin "letmein") someLogin authWorld emptyDb gracesDb :=
  (tellsNothing_iff _ _ _ _ _ differsBy_gracesRow (by decide +kernel) (by decide +kernel)).2
    (.inl (by decide))

/-- **The empty password tells**: the outcome is a failure without her account,
and an exception with it. -/
theorem not_tellsNothing :
    ¬ ∀ (host : Host) (tokens : TokenService) (params : Login) (m : LoginMoment) (a : AuthWorld)
        (row : UserRow) (db db' : UserDb), DiffersBy row db db' →
      row.email = host.toLowerCase (trim params.email) →
      host.bcryptCompare params.password row.passwordHash = false →
      SameOutcome host tokens params m a db db' := by
  intro h
  have hsame := h plainHost plainTokens (gracesLogin "") someLogin authWorld gracesRow emptyDb
    gracesDb differsBy_gracesRow (by decide +kernel) (by decide +kernel)
  have hfail : (Task.run (AuthOp.exec plainHost) (AuthenticateUserUseCase.execute plainHost
      plainTokens (gracesLogin "") someLogin) (authWorld.withDb emptyDb)).1.isOk = true := by
    decide +kernel
  have hthrow : (Task.run (AuthOp.exec plainHost) (AuthenticateUserUseCase.execute plainHost
      plainTokens (gracesLogin "") someLogin) (authWorld.withDb gracesDb)).1.isOk = false := by
    decide +kernel
  rw [hsame, hthrow] at hfail
  exact nomatch hfail

end EnterpriseSystem.Application
