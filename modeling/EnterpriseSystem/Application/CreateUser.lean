import EnterpriseSystem.Application.AuthenticateUser
import EnterpriseSystem.Identity.UnitOfWork
import EnterpriseSystem.Resilience.CircuitBreaker

/-!
# Creating a user

`src/application/use-cases/create-user.use-case.ts` with its decorator
`validate.decorator.ts`, its `CreateUserDto` and `user.mapper.ts`; and when it
and `AuthenticateUserUseCase` answer by a `Result`.

* `CreateUserDto`, `validationErrors`, `ValidateInput` — the input and its
  constraints, over `class-validator`.
* `CreateUserUseCase.execute` and its equation `run_execute`.
* `UseCaseCall`, `PortsSucceed` — the calls of the two use cases, and that the
  ports do what they are asked for.
* `returnsResult_iff` — which calls return a `Result`.
-/

namespace EnterpriseSystem.Application

open Identity Relational Concurrency

/-! ## The input -/

/-- `CreateUserDto`. -/
structure CreateUserDto where
  email : String
  firstName : String
  lastName : String
  password : String
  deriving DecidableEq

/-- What the decorators of `class-validator` rely on. -/
structure ValidatorJs where
  isEmail : String → Bool
  isLength : String → (min : ℕ) → (max : Option ℕ) → Bool

/-- A decorator of a property. -/
structure Constraint where
  name : String
  holds : String → Bool
  message : String

section

variable (v : ValidatorJs)

/-- `@IsEmail`. -/
def IsEmail (message : String) : Constraint := ⟨"isEmail", v.isEmail, message⟩

/-- `@IsString`; the properties of the record are texts. -/
def IsString (message : String) : Constraint := ⟨"isString", fun _ => true, message⟩

/-- `@MinLength`. -/
def MinLength (min : ℕ) (message : String) : Constraint :=
  ⟨"minLength", fun s => v.isLength s min none, message⟩

/-- `@MaxLength`. -/
def MaxLength (max : ℕ) (message : String) : Constraint :=
  ⟨"maxLength", fun s => v.isLength s 0 (some max), message⟩

/-- `@Matches`. -/
def Matches (pattern : String → Bool) (message : String) : Constraint :=
  ⟨"matches", pattern, message⟩

/-- The characters that `.` does not match. -/
def isLineTerminator (c : Char) : Bool := ['\n', '\r', '\u2028', '\u2029'].contains c

namespace CreateUserDto

/-- `/^(?=.*[a-z])(?=.*[A-Z])(?=.*\d)(?=.*[^A-Za-z0-9]).+$/`. -/
def passwordPattern (s : String) : Bool :=
  !s.isEmpty && s.toList.all (fun c => !isLineTerminator c) && s.toList.any isLower &&
    s.toList.any isUpper && s.toList.any isDigit && s.toList.any fun c => !isAlphanumeric c

/-- The constraints of a name. -/
def nameConstraints (label : String) : List Constraint :=
  [MaxLength v 100 s!"{label} must not exceed 100 characters.",
    MinLength v 1 s!"{label} must not be empty.",
    IsString s!"{label} is required."]

/-- The properties with their constraints; decorators apply from the last to the first. -/
def properties : List (String × (CreateUserDto → String) × List Constraint) :=
  [("email", email,
      [MaxLength v 320 "Email must not exceed 320 characters.",
        IsEmail v "Email must be a valid email address."]),
    ("firstName", firstName, nameConstraints v "First name"),
    ("lastName", lastName, nameConstraints v "Last name"),
    ("password", password,
      [Matches passwordPattern "Password must contain at least one uppercase letter, one lowercase letter, one digit, and one special character.",
        MaxLength v 128 "Password must not exceed 128 characters.",
        MinLength v 8 "Password must be at least 8 characters.",
        IsString "Password is required."])]

end CreateUserDto

/-- What `formatValidationErrors` makes of the errors of `validate`. -/
def validationErrors (dto : CreateUserDto) : List FormattedError :=
  (CreateUserDto.properties v).filterMap fun (field, value, constraints) =>
    let broken := constraints.filter fun c => !c.holds (value dto)
    if broken.isEmpty then none
    else some ⟨field, "; ".intercalate (broken.map Constraint.message),
      broken.map Constraint.name⟩

/-- `@ValidateInput`. -/
def ValidateInput {α : Type} (method : CreateUserDto → UnitTask (Result α)) (dto : CreateUserDto) :
    UnitTask (Result α) :=
  let errors := validationErrors v dto
  if errors.length > 0 then
    return .fail ⟨"VALIDATION_ERROR", "Input validation failed.", some (.errors errors)⟩
  else method dto

end

/-! ## The answer -/

/-- `UserResponseDto`. -/
structure UserResponseDto where
  id : String
  email : String
  firstName : String
  lastName : String
  fullName : String
  status : UserStatus
  emailVerified : Bool
  lastLoginAt : Option String
  createdAt : String
  updatedAt : String
  roleIds : List String
  deriving DecidableEq

/-- `date.toISOString()`. -/
def toISOString (date : Date) : Except Thrown String :=
  match Calendar.toISOString date with
  | some s => .ok s
  | none => .error (.error "Invalid time value")

/-- `UserMapper.toDTO`. -/
def UserMapper.toDTO (user : User) : Except Thrown UserResponseDto := do
  let lastLoginAt ← match user.lastLoginAt with
    | some date => (toISOString date).map some
    | none => .ok none
  let createdAt ← toISOString user.createdAt
  let updatedAt ← toISOString user.updatedAt
  return { id := user.id.value, email := user.email.value, firstName := user.firstName,
           lastName := user.lastName, fullName := user.fullName, status := user.status,
           emailVerified := user.emailVerified, lastLoginAt := lastLoginAt,
           createdAt := createdAt, updatedAt := updatedAt, roleIds := [] }

/-! ## The use case -/

namespace CreateUserUseCase

variable (host : Host) (v : ValidatorJs) (dto : CreateUserDto) (id : UniqueId) (m : Moment)

/-- Step 1. -/
def credentials : Except Thrown (Email × Password) := do
  let email ← Email.create host.toLowerCase dto.email
  let rawPassword ← Password.create dto.password
  return (email, rawPassword)

/-- `execute`, for the identifier and the moment that `User.create` draws. -/
def execute : UnitTask (Result UserResponseDto) :=
  ValidateInput v (fun dto =>
    tryCatch (
      match credentials host dto with
      | .error error => return .fail ⟨"VALIDATION_ERROR", error.message, none⟩
      | .ok (email, rawPassword) => do
        let user ← UnitOfWork.execute fun _ => UnitTask.through .base
          (UserDomainService.registerUser host email rawPassword dto.firstName dto.lastName id m)
        let response ← Task.ofExcept (UserMapper.toDTO user)
        return .ok response) fun error => Task.ofExcept (toFailure error)) dto

section

variable {host v dto id m}

/-- **The use case**: what comes of the validation, of the credentials and of
the domain service. -/
theorem run_execute (w : UserWorld) :
    (Task.run (UnitOp.exec host) (execute host v dto id m) ⟨w, []⟩).1 =
      if (validationErrors v dto).length > 0 then
        .ok (.fail ⟨"VALIDATION_ERROR", "Input validation failed.",
          some (.errors (validationErrors v dto))⟩)
      else match credentials host dto with
        | .error error => .ok (.fail ⟨"VALIDATION_ERROR", error.message, none⟩)
        | .ok (email, rawPassword) =>
          if w.down then toFailure outage
          else match Task.run (UserOp.exec host) (UserDomainService.registerUser host email
              rawPassword dto.firstName dto.lastName id m) w.next with
            | (.error e, _) => toFailure e
            | (.ok user, w') =>
              if w'.down then toFailure outage
              else match UserMapper.toDTO user with
                | .ok response => .ok (.ok response)
                | .error e => toFailure e := by
  unfold execute ValidateInput
  dsimp only
  rw [Task.run_ite]
  by_cases hinvalid : (validationErrors v dto).length > 0
  · rw [if_pos hinvalid, if_pos hinvalid]
    rfl
  · rw [if_neg hinvalid, if_neg hinvalid]
    cases credentials host dto with
    | error error => rfl
    | ok credentials =>
      obtain ⟨email, rawPassword⟩ := credentials
      dsimp only
      rw [Task.run_tryCatch, Task.run_bind, UnitOfWork.run_execute (run_through_base _)]
      cases w.down with
      | true => rfl
      | false =>
        simp only [Bool.false_eq_true, if_false]
        rcases Task.run (UserOp.exec host) (UserDomainService.registerUser host email rawPassword
          dto.firstName dto.lastName id m) w.next with ⟨r, w'⟩
        cases r with
        | error e => rfl
        | ok user =>
          dsimp only
          cases w'.down with
          | true => rfl
          | false =>
            simp only [Bool.false_eq_true, if_false, Task.run_bind, Task.run_ofExcept]
            cases UserMapper.toDTO user with
            | error e => simp only
            | ok response => rfl

end

end CreateUserUseCase

/-! ## Failures as results -/

/-- A call of one of the two use cases. -/
inductive UseCaseCall where
  | createUser (dto : CreateUserDto)
  | authenticateUser (params : Login)

/-- What the use cases rely on and what they draw. -/
structure Env where
  host : Host
  validator : ValidatorJs
  tokens : TokenService
  id : UniqueId
  created : Moment
  login : LoginMoment

namespace UseCaseCall

variable (env : Env) (a : AuthWorld)

/-- The call returns a `Result`. -/
def ReturnsResult : UseCaseCall → Prop
  | createUser dto => ∃ result, (Task.run (UnitOp.exec env.host)
      (CreateUserUseCase.execute env.host env.validator dto env.id env.created)
      ⟨a.users, []⟩).1 = .ok result
  | authenticateUser params => ∃ result, (Task.run (AuthOp.exec env.host)
      (AuthenticateUserUseCase.execute env.host env.tokens params env.login) a).1 = .ok result

/-- The call hands this entity to `save`, at this time. -/
def Hands (user : User) (now : Date) : UseCaseCall → Prop
  | createUser dto => now = env.created.now ∧ ∃ email rawPassword,
      CreateUserUseCase.credentials env.host dto = .ok (email, rawPassword) ∧
      a.users.db.findByEmail? email.value = none ∧
      User.create email ⟨"", some (env.host.bcryptHash rawPassword.rawValue
        (a.users.salts (a.users.performed + 2)))⟩ dto.firstName dto.lastName env.id env.created =
          .ok user
  | authenticateUser params => now = env.login.login.now ∧ ∃ email stored,
      Email.create env.host.toLowerCase params.email = .ok email ∧
      UserDomainService.found env.host a.users email = some stored ∧ params.password ≠ "" ∧
      env.host.bcryptCompare params.password (stored.password.hashedValue.getD "") = true ∧
      stored.status = .active ∧ user = stored.loginRecorded env.login.login

/-- The ports succeed: no operation fails, the clock shows a date, a hash is a
text, an identifier drawn is new, and the table takes what it is handed. -/
structure PortsSucceed (c : UseCaseCall) : Prop where
  up : ∀ n, a.users.faults n = false
  clock : |(a.users.clock : Calendar.Millis)| ≤ Calendar.maxDate
  hashes : ∀ plain n, env.host.bcryptHash plain (a.users.salts n) ≠ ""
  fresh : a.users.db.findById? env.id.dbUuid = none
  saves : ∀ user now, c.Hands env a user now →
    UserRepositoryImpl.Accepts a.users.db a.users.clock user now

/-- The call meets no rule that signals a failure by a plain `Error`: the entity
checks no name that the input let through, the hasher no empty password, and
the entity no login of a user who is not `ACTIVE`. -/
def MeetsNoPlainError : UseCaseCall → Prop
  | createUser dto =>
    validationErrors env.validator dto ≠ [] ∨
      (∃ e, CreateUserUseCase.credentials env.host dto = .error e) ∨
      (∃ email rawPassword row, CreateUserUseCase.credentials env.host dto = .ok (email, rawPassword) ∧
        a.users.db.findByEmail? email.value = some row) ∨
      User.validateName dto.firstName "First name" = .ok () ∧
        User.validateName dto.lastName "Last name" = .ok ()
  | authenticateUser params =>
    ∀ email user, Email.create env.host.toLowerCase params.email = .ok email →
      UserDomainService.found env.host a.users email = some user →
      params.password ≠ "" ∧
        (env.host.bcryptCompare params.password (user.password.hashedValue.getD "") = true →
          user.status = .active)

end UseCaseCall

/-! ### What can go wrong in creating a user -/

/-- `User.create` checks the two names and nothing else. -/
theorem exists_create_iff {email : Email} {password : Password} {firstName lastName : String}
    {id : UniqueId} {m : Moment} :
    (∃ user, User.create email password firstName lastName id m = .ok user) ↔
      User.validateName firstName "First name" = .ok () ∧
        User.validateName lastName "Last name" = .ok () := by
  unfold User.create
  cases User.validateName firstName "First name" with
  | error e => exact ⟨nofun, nofun⟩
  | ok _ =>
    cases User.validateName lastName "Last name" with
    | error e => exact ⟨nofun, nofun⟩
    | ok _ => exact iff_of_true ⟨_, rfl⟩ ⟨rfl, rfl⟩

/-- It signals what it finds by a plain `Error`. -/
theorem toFailure_of_create_error {α : Type} {email : Email} {password : Password}
    {firstName lastName : String} {id : UniqueId} {m : Moment} {e : Thrown}
    (h : User.create email password firstName lastName id m = .error e) :
    (toFailure e : Except Thrown (Result α)) = .error e := by
  have hname : ∀ name label, User.validateName name label = .error e → ∃ text, e = .error text := by
    intro name label hfails
    unfold User.validateName at hfails
    split_ifs at hfails <;> exact ⟨_, (Except.error.inj hfails).symm⟩
  have hplain : ∃ text, e = .error text := by
    unfold User.create at h
    cases hfirst : User.validateName firstName "First name" with
    | error e' =>
      rw [hfirst] at h
      obtain rfl : e' = e := Except.error.inj h
      exact hname _ _ hfirst
    | ok _ =>
      rw [hfirst] at h
      cases hlast : User.validateName lastName "Last name" with
      | error e' =>
        rw [hlast] at h
        obtain rfl : e' = e := Except.error.inj h
        exact hname _ _ hlast
      | ok _ =>
        rw [hlast] at h
        exact nomatch h
  obtain ⟨text, rfl⟩ := hplain
  rfl

theorem toISOString_eq_ok {date : Date} (h : |(date : Calendar.Millis)| ≤ Calendar.maxDate) :
    ∃ s, toISOString date = .ok s := by
  unfold toISOString
  cases hiso : Calendar.toISOString date with
  | none => exact absurd (Calendar.toISOString_eq_none.1 hiso) (not_lt.2 h)
  | some s => exact ⟨s, rfl⟩

/-- A user who has just been stored can be shown. -/
theorem toDTO_eq_ok {host : Host} {columns : UserColumns} {id : DbUuid} {passwordHash : String}
    {clock : Date} (hlogin : columns.lastLoginAt = none)
    (hclock : |(clock : Calendar.Millis)| ≤ Calendar.maxDate)
    (h : isUuidV4 (columns.newRow id passwordHash clock).kept.id.text = true) :
    ∃ response, UserMapper.toDTO
      (UserRepositoryImpl.entity host (columns.newRow id passwordHash clock).kept h) = .ok response := by
  obtain ⟨s, hs⟩ := toISOString_eq_ok hclock
  have hlast : (UserRepositoryImpl.entity host (columns.newRow id passwordHash clock).kept h).lastLoginAt =
      none := hlogin
  have hcreated : (UserRepositoryImpl.entity host (columns.newRow id passwordHash clock).kept h).createdAt =
      clock := rfl
  have hupdated : (UserRepositoryImpl.entity host (columns.newRow id passwordHash clock).kept h).updatedAt =
      clock := rfl
  unfold UserMapper.toDTO
  rw [hlast, hcreated, hupdated, hs]
  exact ⟨_, rfl⟩

section

open UserRepositoryImpl UserDomainService

variable {env : Env} {a : AuthWorld}

/-- A password that passed is not empty. -/
theorem rawValue_of_credentials {host : Host} {dto : CreateUserDto} {email : Email}
    {password : Password}
    (h : CreateUserUseCase.credentials host dto = .ok (email, password)) :
    password.rawValue ≠ "" := by
  obtain ⟨email', -, h⟩ := bind_eq_ok.1 h
  obtain ⟨password', hpassword, hpair⟩ := bind_eq_ok.1 h
  obtain ⟨hne, rfl⟩ := Password.create_eq_ok hpassword
  cases hpair
  exact hne

section

variable {dto : CreateUserDto} {email : Email} {password : Password}

/-- The hash that the password of a new user gets. -/
def newHash (env : Env) (a : AuthWorld) (password : Password) : Password :=
  ⟨"", some (env.host.bcryptHash password.rawValue (a.users.salts (a.users.performed + 2)))⟩

/-- An address that is taken. -/
theorem run_registerUser_of_taken (h : UseCaseCall.PortsSucceed env a (.createUser dto))
    (password : Password) {row : UserRow}
    (hrow : a.users.db.findByEmail? email.value = some row) :
    Task.run (UserOp.exec env.host) (registerUser env.host email password dto.firstName
      dto.lastName env.id env.created) a.users.next =
        (.error (.emailAlreadyExists email.value), a.users.next.next) := by
  have hdown : a.users.next.down = false := h.up _
  rw [run_registerUser, run_newUser, hdown, UserWorld.next_db, hrow]
  rfl

/-- One that is free: the entity is made for the hash of the password. -/
theorem run_newUser_of_free (h : UseCaseCall.PortsSucceed env a (.createUser dto))
    (hcredentials : CreateUserUseCase.credentials env.host dto = .ok (email, password))
    (hfree : a.users.db.findByEmail? email.value = none) :
    Task.run (UserOp.exec env.host) (newUser email password dto.firstName dto.lastName env.id
      env.created) a.users.next =
      (User.create email (newHash env a password) dto.firstName dto.lastName env.id env.created,
        a.users.next.next.next) := by
  have hdown : a.users.next.down = false := h.up _
  have hdown' : a.users.next.next.down = false := h.up _
  have hhash : Password.fromHash (env.host.bcryptHash password.rawValue
      (a.users.next.salts (a.users.next.performed + 1))) = .ok (newHash env a password) :=
    if_neg (h.hashes _ _)
  rw [run_newUser, hdown, UserWorld.next_db, hfree, if_neg (rawValue_of_credentials hcredentials),
    hdown', hhash]
  rfl

/-- The entity that `createUser` hands over is stored and shown. -/
theorem run_registerUser_of_created (h : UseCaseCall.PortsSucceed env a (.createUser dto))
    (hcredentials : CreateUserUseCase.credentials env.host dto = .ok (email, password))
    (hfree : a.users.db.findByEmail? email.value = none) {user : User}
    (hcreate : User.create email (newHash env a password) dto.firstName dto.lastName env.id
      env.created = .ok user) :
    ∃ u w' response, Task.run (UserOp.exec env.host) (registerUser env.host email password
        dto.firstName dto.lastName env.id env.created) a.users.next = (.ok u, w') ∧
      w'.down = false ∧ UserMapper.toDTO u = .ok response := by
  have haccepts := h.saves user env.created.now ⟨rfl, email, password, hcredentials, hfree, hcreate⟩
  obtain ⟨hid, hpassword, -⟩ := create_eq_ok hcreate
  have hlogin : user.lastLoginAt = none := by
    obtain ⟨-, -, hcreate⟩ := bind_eq_ok.1 hcreate
    obtain ⟨-, -, hcreate⟩ := bind_eq_ok.1 hcreate
    cases hcreate
    rfl
  obtain ⟨u, hmap⟩ := exists_toDomain_savedRow env.host a.users.db a.users.clock env.created.now user
    (by rw [hpassword]; rfl) (h.hashes _ _)
  have hrow : savedRow a.users.db a.users.clock user env.created.now =
      ((columns user).newRow user.id.dbUuid (user.password.hashedValue.getD "")
        a.users.clock).kept := by
    unfold savedRow givenRow
    rw [hid, h.fresh]
  have hsave := (run_save_eq_ok (w := a.users.next.next.next)).2
    ⟨h.up _, h.up _, haccepts, hmap, rfl⟩
  rw [hrow] at hmap
  obtain ⟨hv4, -, rfl⟩ := toDomain_eq_ok.1 hmap
  obtain ⟨response, hresponse⟩ := toDTO_eq_ok hlogin h.clock hv4
  refine ⟨_, _, response, Eq.trans ?_ hsave, h.up _, hresponse⟩
  rw [run_registerUser, run_newUser_of_free h hcredentials hfree, hcreate]

/-- **Creating a user.** -/
theorem createUser_returnsResult_iff (h : UseCaseCall.PortsSucceed env a (.createUser dto)) :
    UseCaseCall.ReturnsResult env a (.createUser dto) ↔
      UseCaseCall.MeetsNoPlainError env a (.createUser dto) := by
  dsimp only [UseCaseCall.ReturnsResult, UseCaseCall.MeetsNoPlainError]
  rw [CreateUserUseCase.run_execute]
  by_cases hinvalid : (validationErrors env.validator dto).length > 0
  · rw [if_pos hinvalid]
    exact iff_of_true ⟨_, rfl⟩ (.inl (List.ne_nil_of_length_pos hinvalid))
  · rw [if_neg hinvalid]
    cases hcredentials : CreateUserUseCase.credentials env.host dto with
    | error error => exact iff_of_true ⟨_, rfl⟩ (.inr (.inl ⟨error, rfl⟩))
    | ok credentials =>
      obtain ⟨email, password⟩ := credentials
      have hdown : a.users.down = false := h.up _
      dsimp only
      rw [hdown]
      simp only [Bool.false_eq_true, if_false]
      cases hfind : a.users.db.findByEmail? email.value with
      | some row =>
        rw [run_registerUser_of_taken h password hfind]
        exact iff_of_true ⟨_, rfl⟩ (.inr (.inr (.inl ⟨email, password, row, rfl, hfind⟩)))
      | none =>
        cases hcreate : User.create email (newHash env a password) dto.firstName dto.lastName
            env.id env.created with
        | error e =>
          rw [run_registerUser, run_newUser_of_free h hcredentials hfind, hcreate]
          refine iff_of_false ?_ ?_
          · rintro ⟨result, hresult⟩
            exact nomatch (toFailure_of_create_error hcreate).symm.trans hresult
          · rintro (hne | ⟨_, ⟨⟩⟩ | ⟨_, _, _, ⟨⟩, hrow⟩ | hnames)
            · exact hinvalid (List.length_pos_of_ne_nil hne)
            · exact nomatch hfind.symm.trans hrow
            · obtain ⟨user, huser⟩ := exists_create_iff.2 hnames
              exact nomatch hcreate.symm.trans huser
        | ok user =>
          obtain ⟨u, w', response, hrun, hup, hresponse⟩ :=
            run_registerUser_of_created h hcredentials hfind hcreate
          rw [hrun]
          dsimp only
          rw [hup, hresponse]
          exact iff_of_true ⟨_, rfl⟩ (.inr (.inr (.inr (exists_create_iff.1 ⟨user, hcreate⟩))))

end

/-- **Authenticating a user.** -/
theorem authenticateUser_returnsResult_iff {params : Login}
    (h : UseCaseCall.PortsSucceed env a (.authenticateUser params)) :
    UseCaseCall.ReturnsResult env a (.authenticateUser params) ↔
      UseCaseCall.MeetsNoPlainError env a (.authenticateUser params) := by
  dsimp only [UseCaseCall.ReturnsResult, UseCaseCall.MeetsNoPlainError]
  cases hemail : Email.create env.host.toLowerCase params.email with
  | error e =>
    rw [AuthenticateUserUseCase.run_execute, hemail]
    exact iff_of_true ⟨_, rfl⟩ nofun
  | ok email =>
    cases huser : found env.host a.users email with
    | none =>
      rw [run_execute_of_not_found hemail huser]
      refine iff_of_true ⟨_, rfl⟩ fun email' user hemail' huser' => ?_
      cases hemail'
      exact nomatch huser.symm.trans huser'
    | some user =>
      have honly : (∀ email' user', (Except.ok email : Except Thrown Email) = .ok email' →
          found env.host a.users email' = some user' → params.password ≠ "" ∧
            (env.host.bcryptCompare params.password (user'.password.hashedValue.getD "") = true →
              user'.status = .active)) ↔
          params.password ≠ "" ∧
            (env.host.bcryptCompare params.password (user.password.hashedValue.getD "") = true →
              user.status = .active) := by
        constructor
        · exact fun hall => hall email user rfl huser
        · rintro hone _ user' ⟨⟩ huser'
          obtain rfl : user = user' := Option.some.inj (huser.symm.trans huser')
          exact hone
      rw [honly]
      by_cases hempty : params.password = ""
      · rw [run_execute_of_empty hemail huser hempty]
        exact iff_of_false nofun fun h => h.1 hempty
      · cases hmatch : env.host.bcryptCompare params.password
            (user.password.hashedValue.getD "") with
        | false =>
          rw [run_execute_of_wrong hemail huser hempty hmatch]
          exact iff_of_true ⟨_, rfl⟩ ⟨hempty, nofun⟩
        | true =>
          by_cases hstatus : user.status = .active
          · have haccepts := h.saves (user.loginRecorded env.login.login) env.login.login.now
              ⟨rfl, email, user, hemail, huser, hempty, hmatch, hstatus, rfl⟩
            obtain ⟨-, row, -, hv4, hhash, rfl⟩ := found_eq_some.1 huser
            obtain ⟨u, hmap⟩ := exists_toDomain_savedRow env.host a.users.db a.users.clock
              env.login.login.now ((entity env.host row hv4).loginRecorded env.login.login) rfl hhash
            have hsave := (run_save_eq_ok (w := a.users.next.next)).2
              ⟨h.up _, h.up _, haccepts, hmap, rfl⟩
            exact iff_of_true
              (run_execute_of_right hemail huser hempty (h.up _) hmatch hstatus hsave (h.up _))
              ⟨hempty, fun _ => hstatus⟩
          · rw [run_execute_of_refused hemail huser hempty (h.up _) hmatch hstatus]
            exact iff_of_false nofun fun h => hstatus (h.2 rfl)

end

/-- **Failures are results**, when the ports succeed, exactly where no rule that
is met signals its failure by a plain `Error`. -/
theorem returnsResult_iff (env : Env) (a : AuthWorld) (c : UseCaseCall) (h : c.PortsSucceed env a) :
    c.ReturnsResult env a ↔ c.MeetsNoPlainError env a := by
  cases c with
  | createUser dto => exact createUser_returnsResult_iff h
  | authenticateUser params => exact authenticateUser_returnsResult_iff h

/-- A validator for the runs on fixed inputs. -/
def plainValidator : ValidatorJs where
  isEmail s := Email.isAddress s.toList
  isLength s min max := min ≤ s.length && max.all fun max => s.length ≤ max

/-- The identifier of a user who is not there yet. -/
def ada : UniqueId := ⟨"00000000-0000-4000-8000-0000000000ad", by decide +kernel⟩

/-- The surroundings of the runs on fixed inputs. -/
def plainEnv : Env := ⟨plainHost, plainValidator, plainTokens, ada, ⟨1, ada⟩, someLogin⟩

/-- A name of blanks. -/
def blankName : CreateUserDto := ⟨"ada@example.com", "   ", "Lovelace", "Str0ng!Pass"⟩

theorem hashes_calmWorld (db : UserDb) (plain : String) (n : ℕ) :
    plainHost.bcryptHash plain ((calmWorld db).salts n) ≠ "" := by
  intro hempty
  have hlist : ("$2a$12$" ++ plain).toList = "".toList := congrArg String.toList hempty
  rw [String.toList_append] at hlist
  exact nomatch (List.append_eq_nil_iff.1 hlist).1

/-- Grace logs in: the ports do what they are asked for, and she gets her tokens. -/
theorem returnsResult_gracesLogin :
    UseCaseCall.ReturnsResult plainEnv ⟨calmWorld gracesDb, [], []⟩
      (.authenticateUser (gracesLogin "Str0ng!Pass")) := by
  have hfound : ∀ user, UserDomainService.found plainHost (calmWorld gracesDb)
      ⟨"grace@example.com"⟩ = some user →
      ∃ h, user = UserRepositoryImpl.entity plainHost gracesRow h := by
    intro user huser
    obtain ⟨-, row, hrow, h, -, rfl⟩ := UserDomainService.found_eq_some.1 huser
    obtain rfl : gracesRow = row :=
      Option.some.inj (Eq.trans (by decide +kernel : some gracesRow = _) hrow)
    exact ⟨h, rfl⟩
  have hemail : ∀ email, Email.create plainHost.toLowerCase "Grace@example.com " = .ok email →
      email = ⟨"grace@example.com"⟩ := by
    intro email hcreate
    have hvalue := Email.create_eq_ok hcreate
    rw [show plainHost.toLowerCase (trim "Grace@example.com ") = "grace@example.com" by
      decide +kernel] at hvalue
    cases email
    exact congrArg Email.mk hvalue
  refine (returnsResult_iff plainEnv ⟨calmWorld gracesDb, [], []⟩
    (.authenticateUser (gracesLogin "Str0ng!Pass"))
    ⟨fun _ => rfl, by decide +kernel, hashes_calmWorld gracesDb, by decide +kernel, ?_⟩).2 ?_
  · rintro user now ⟨rfl, email, stored, hcreate, huser, -, -, -, rfl⟩
    obtain rfl := hemail email hcreate
    obtain ⟨h, rfl⟩ := hfound stored huser
    exact authenticationGoesThrough_grace.2.2.2.2.2.2.2.2.2.2
  · intro email user hcreate huser
    obtain rfl := hemail email hcreate
    obtain ⟨h, rfl⟩ := hfound user huser
    exact ⟨by decide, fun _ => rfl⟩

/-- **A name of blanks** passes the validation and makes the use case throw. -/
theorem not_returnsResult :
    ¬ ∀ (env : Env) (a : AuthWorld) (c : UseCaseCall), c.PortsSucceed env a →
      c.ReturnsResult env a := by
  intro h
  have hrefused : User.validateName "   " "First name" =
      .error (.error "First name must be a non-empty string.") := by decide +kernel
  have hports : UseCaseCall.PortsSucceed plainEnv ⟨calmWorld emptyDb, [], []⟩
      (.createUser blankName) := by
    refine ⟨fun _ => rfl, by decide +kernel, hashes_calmWorld emptyDb, rfl, ?_⟩
    rintro user now ⟨-, email, password, -, -, hcreate⟩
    exact nomatch hrefused.symm.trans (exists_create_iff.1 ⟨user, hcreate⟩).1
  obtain ⟨result, hresult⟩ := h plainEnv ⟨calmWorld emptyDb, [], []⟩ (.createUser blankName) hports
  have hthrows : (Task.run (UnitOp.exec plainHost) (CreateUserUseCase.execute plainHost
      plainValidator blankName ada ⟨1, ada⟩) ⟨calmWorld emptyDb, []⟩).1.isOk = false := by
    decide +kernel
  have hok := congrArg Except.isOk hresult
  exact nomatch hthrows.symm.trans hok

end EnterpriseSystem.Application
