import EnterpriseSystem.Identity.UserRepository

/-!
# The user domain service

`src/domain/domain-services/user-domain.service.ts` over the repository, the
password hasher (`password-hasher.impl.ts`) and the event publisher.

* `UserDomainService.registerUser`, `authenticate`, `changePassword` — its
  workflows; each finds or makes the entity it saves (`newUser`, `loggedIn`,
  `withNewPassword`) and ends with `persistAndDispatch`.
* `run_loggedIn_eq_ok` and its companions — when a workflow goes through.
* `PublishesRaised` — the batches published in a call are the events its entity
  raised — and `publishesRaised_iff`: all calls but a registration that goes
  through.
* `UserCanLoginSpec` — and `authenticate_verified_iff`: whom `authenticate` lets in.
-/

namespace EnterpriseSystem.Identity

open Objects Relational Concurrency

/-! ## The password hasher -/

namespace PasswordHasherImpl

/-- `hash`. -/
def hash (plainText : String) : UserTask String :=
  if plainText = "" then throw (.error "Password to hash must be a non-empty string")
  else tryCatch (UserTask.bcryptHash plainText) fun _ => throw (.error "Password hashing failed")

/-- `compare`: a comparison that fails is no match. -/
def compare (plainText hashedValue : String) : UserTask Bool :=
  if plainText = "" then throw (.error "Password to compare must be a non-empty string")
  else if hashedValue = "" then throw (.error "Hash to compare must be a non-empty string")
  else tryCatch (UserTask.bcryptCompare plainText hashedValue) fun _ => return false

end PasswordHasherImpl

/-! ## The service -/

namespace UserDomainService

open UserRepositoryImpl

variable (host : Host)

/-- A call of a method of an entity that the workflow holds. -/
def onEntity {α : Type} (method : User.Method α) (user : User) : UserTask (α × User) :=
  match method.call user with
  | (.ok a, user) => return (a, user)
  | (.error e, _) => throw e

/-- Steps 4 and 5 of every workflow: save the entity, then publish the events
of the entity that `save` returned. -/
def persistAndDispatch (user : User) (now : Date) : UserTask User := do
  let savedUser ← save host user now
  let (events, savedUser) ← onEntity User.pullDomainEvents savedUser
  if events.length > 0 then
    UserTask.publish events
  return savedUser

/-- Steps 1 to 3 of `registerUser`: the entity it saves. -/
def newUser (email : Email) (rawPassword : Password) (firstName lastName : String) (id : UniqueId)
    (m : Moment) : UserTask User := do
  let emailExists ← existsByEmail email
  if emailExists then
    throw (.emailAlreadyExists email.value)
  let hash ← PasswordHasherImpl.hash rawPassword.rawValue
  let hashedPassword ← Task.ofExcept (Password.fromHash hash)
  Task.ofExcept (User.create email hashedPassword firstName lastName id m)

/-- `registerUser`. -/
def registerUser (email : Email) (rawPassword : Password) (firstName lastName : String)
    (id : UniqueId) (m : Moment) : UserTask User := do
  let user ← newUser email rawPassword firstName lastName id m
  persistAndDispatch host user m.now

/-- The entity `authenticate` saves; `none` stands for the answer `null`. -/
def loggedIn (email : Email) (rawPassword : String) (m : Moment) : UserTask (Option User) := do
  let found ← tryCatch (do
    let user ← findByEmail host email
    return some user) fun _ => return none
  match found with
  | none => return none
  | some user =>
    match user.password.hashedValue with
    | none => return none
    | some storedHash =>
      if storedHash = "" then
        return none
      else
        let isValid ← PasswordHasherImpl.compare rawPassword storedHash
        if isValid = false then
          return none
        else
          let (_, user) ← onEntity (User.recordLogin m) user
          return some user

/-- `authenticate`. -/
def authenticate (email : Email) (rawPassword : String) (m : Moment) :
    UserTask (Option User) := do
  match ← loggedIn host email rawPassword m with
  | none => return none
  | some user =>
    let savedUser ← persistAndDispatch host user m.now
    return some savedUser

/-- The entity `changePassword` saves; `none` stands for the answer `false`. -/
def withNewPassword (userId currentPasswordRaw : String) (newPassword : Password) (m : Moment) :
    UserTask (Option User) := do
  let id ← Task.ofExcept (UniqueId.fromString userId)
  let user ← findById host id
  match user.password.hashedValue with
  | none => return none
  | some storedHash =>
    if storedHash = "" then
      return none
    else
      let isValid ← PasswordHasherImpl.compare currentPasswordRaw storedHash
      if isValid = false then
        return none
      else
        let newHash ← PasswordHasherImpl.hash newPassword.rawValue
        let hashedNewPassword ← Task.ofExcept (Password.fromHash newHash)
        let (_, user) ← onEntity (User.changePassword hashedNewPassword m) user
        return some user

/-- `changePassword`. -/
def changePassword (userId currentPasswordRaw : String) (newPassword : Password) (m : Moment) :
    UserTask Bool := do
  match ← withNewPassword host userId currentPasswordRaw newPassword m with
  | none => return false
  | some user =>
    let _ ← persistAndDispatch host user m.now
    return true

/-! ## Each workflow alone -/

section

variable {host} {w w' : UserWorld}

theorem run_hash (plainText : String) (w : UserWorld) :
    Task.run (UserOp.exec host) (PasswordHasherImpl.hash plainText) w =
      if plainText = "" then
        (.error (.error "Password to hash must be a non-empty string"), w)
      else if w.down then (.error (.error "Password hashing failed"), w.next)
      else (.ok (host.bcryptHash plainText (w.salts w.performed)), w.next) := by
  simp only [PasswordHasherImpl.hash, Task.run_ite, Task.run_tryCatch, UserTask.run_bcryptHash]
  split_ifs <;> rfl

theorem run_compare (plainText hashedValue : String) (w : UserWorld) :
    Task.run (UserOp.exec host) (PasswordHasherImpl.compare plainText hashedValue) w =
      if plainText = "" then
        (.error (.error "Password to compare must be a non-empty string"), w)
      else if hashedValue = "" then
        (.error (.error "Hash to compare must be a non-empty string"), w)
      else (.ok (!w.down && host.bcryptCompare plainText hashedValue), w.next) := by
  simp only [PasswordHasherImpl.compare, Task.run_ite, Task.run_tryCatch,
    UserTask.run_bcryptCompare]
  cases w.down <;> rfl

theorem run_onEntity {α : Type} (method : User.Method α) (user : User) (w : UserWorld) :
    Task.run (UserOp.exec host) (onEntity method user) w =
      match method.call user with
      | (.ok a, user) => (.ok (a, user), w)
      | (.error e, _) => (.error e, w) := by
  unfold onEntity
  rcases method.call user with ⟨r, u⟩
  cases r <;> rfl

/-- **Nothing is ever published**: the entity that `save` returns comes out of
the mapping, which raises no events. -/
theorem run_persistAndDispatch (user : User) (now : Date) (w : UserWorld) :
    Task.run (UserOp.exec host) (persistAndDispatch host user now) w =
      Task.run (UserOp.exec host) (save host user now) w := by
  unfold persistAndDispatch
  rw [Task.run_bind]
  cases hsave : Task.run (UserOp.exec host) (save host user now) w with
  | mk r w' =>
    cases r with
    | error e => rfl
    | ok savedUser =>
      obtain ⟨-, -, -, hmap, -⟩ := run_save_eq_ok.1 hsave
      obtain ⟨h, -, rfl⟩ := toDomain_eq_ok.1 hmap
      rfl

/-- What `authenticate` finds: any error is no user. -/
theorem run_found (email : Email) (w : UserWorld) :
    Task.run (UserOp.exec host) (tryCatch (do
      let user ← findByEmail host email
      return some user) fun _ => return none) w =
      (.ok (if w.down then none
        else (w.db.findByEmail? email.value).bind fun row => (toDomain host row).toOption),
        w.next) := by
  rw [Task.run_tryCatch, Task.run_bind, run_findByEmail]
  cases w.down with
  | true => rfl
  | false =>
    cases w.db.findByEmail? email.value with
    | none => rfl
    | some row =>
      simp only [Bool.false_eq_true, if_false, Option.bind_some]
      cases toDomain host row <;> rfl

/-- The user that a lookup by address yields. -/
def found (host : Host) (w : UserWorld) (email : Email) : Option User :=
  if w.down then none
  else (w.db.findByEmail? email.value).bind fun row => (toDomain host row).toOption

theorem found_eq_some {email : Email} {user : User} :
    found host w email = some user ↔
      w.down = false ∧ ∃ row, w.db.findByEmail? email.value = some row ∧
        ∃ h : isUuidV4 row.id.text = true, row.passwordHash ≠ "" ∧ user = entity host row h := by
  unfold found
  cases w.down with
  | true => simp
  | false =>
    simp only [Bool.false_eq_true, if_false, Option.bind_eq_some_iff, true_and]
    refine exists_congr fun row => and_congr_right fun _ => ?_
    rw [← toDomain_eq_ok]
    cases toDomain host row with
    | error e => exact ⟨nofun, nofun⟩
    | ok u => exact ⟨fun h => congrArg _ (Option.some.inj h), fun h => congrArg _ (Except.ok.inj h)⟩

/-- **What `authenticate` does before it saves.** -/
theorem run_loggedIn (email : Email) (rawPassword : String) (m : Moment) (w : UserWorld) :
    Task.run (UserOp.exec host) (loggedIn host email rawPassword m) w =
      match found host w email with
      | none => (.ok none, w.next)
      | some user =>
        if rawPassword = "" then
          (.error (.error "Password to compare must be a non-empty string"), w.next)
        else if (!w.next.down &&
            host.bcryptCompare rawPassword (user.password.hashedValue.getD "")) = false then
          (.ok none, w.next.next)
        else if user.status = .active then (.ok (some (user.loginRecorded m)), w.next.next)
        else (.error (User.loginRefused user.status), w.next.next) := by
  have hfound : (if w.down then none
      else (w.db.findByEmail? email.value).bind fun row => (toDomain host row).toOption) =
        found host w email := rfl
  unfold loggedIn
  rw [Task.run_bind, run_found, hfound]
  cases huser : found host w email with
  | none => rfl
  | some user =>
    obtain ⟨-, row, -, h, hhash, rfl⟩ := found_eq_some.1 huser
    have hstored : (entity host row h).password.hashedValue = some row.passwordHash := rfl
    simp only [hstored, if_neg hhash, Task.run_bind, run_compare, Option.getD_some]
    by_cases hpassword : rawPassword = ""
    · rw [if_pos hpassword, if_pos hpassword]
    · rw [if_neg hpassword, if_neg hpassword]
      dsimp only
      cases hmatch : !w.next.down && host.bcryptCompare rawPassword row.passwordHash with
      | false => rfl
      | true =>
        simp only [Bool.true_eq_false, if_false, Task.run_bind, run_onEntity,
          User.call_recordLogin]
        split_ifs <;> rfl

/-- Whom `authenticate` lets in: the row of the address, if its hash matches and
it is `ACTIVE`. -/
theorem run_loggedIn_eq_some {email : Email} {rawPassword : String} {m : Moment} {user : User} :
    Task.run (UserOp.exec host) (loggedIn host email rawPassword m) w = (.ok (some user), w') ↔
      ∃ (row : UserRow) (h : isUuidV4 row.id.text = true),
        w.db.findByEmail? email.value = some row ∧ row.passwordHash ≠ "" ∧ rawPassword ≠ "" ∧
        host.bcryptCompare rawPassword row.passwordHash = true ∧ row.status = .active ∧
        w.down = false ∧ w.next.down = false ∧
        user = (entity host row h).loginRecorded m ∧ w' = w.next.next := by
  rw [run_loggedIn]
  constructor
  · intro hrun
    cases huser : found host w email with
    | none =>
      rw [huser] at hrun
      exact nomatch hrun
    | some stored =>
      obtain ⟨hup, row, hrow, h, hhash, rfl⟩ := found_eq_some.1 huser
      rw [huser] at hrun
      dsimp only at hrun
      split_ifs at hrun with hpassword hmatch hactive
      · exact nomatch hrun
      · exact nomatch hrun
      · rw [Bool.not_eq_false, Bool.and_eq_true, Bool.not_eq_true'] at hmatch
        obtain ⟨hlogged, rfl⟩ := Prod.mk.inj hrun
        exact ⟨row, h, hrow, hhash, hpassword, hmatch.2, hactive, hup, hmatch.1,
          (Option.some.inj (Except.ok.inj hlogged)).symm, rfl⟩
      · exact nomatch hrun
  · rintro ⟨row, h, hrow, hhash, hpassword, hmatch, hactive, hup, hup', rfl, rfl⟩
    have hstored : (entity host row h).password.hashedValue.getD "" = row.passwordHash := rfl
    have hstatus : (entity host row h).status = row.status := rfl
    rw [found_eq_some.2 ⟨hup, row, hrow, h, hhash, rfl⟩]
    simp [hstored, hstatus, hpassword, hmatch, hactive, hup']

theorem run_authenticate (email : Email) (rawPassword : String) (m : Moment) (w : UserWorld) :
    Task.run (UserOp.exec host) (authenticate host email rawPassword m) w =
      match Task.run (UserOp.exec host) (loggedIn host email rawPassword m) w with
      | (.error e, w') => (.error e, w')
      | (.ok none, w') => (.ok none, w')
      | (.ok (some user), w') => match Task.run (UserOp.exec host) (save host user m.now) w' with
        | (.error e, w'') => (.error e, w'')
        | (.ok savedUser, w'') => (.ok (some savedUser), w'') := by
  unfold authenticate
  rw [Task.run_bind]
  rcases Task.run (UserOp.exec host) (loggedIn host email rawPassword m) w with ⟨r, w'⟩
  rcases r with e | - | user
  · rfl
  · rfl
  · dsimp only
    rw [Task.run_bind, run_persistAndDispatch]
    rcases Task.run (UserOp.exec host) (save host user m.now) w' with ⟨r', w''⟩
    cases r' <;> rfl

/-- **What `registerUser` does before it saves.** -/
theorem run_newUser (email : Email) (rawPassword : Password) (firstName lastName : String)
    (id : UniqueId) (m : Moment) (w : UserWorld) :
    Task.run (UserOp.exec host) (newUser email rawPassword firstName lastName id m) w =
      if w.down then (.error transformError, w.next)
      else if (w.db.findByEmail? email.value).isSome then
        (.error (.emailAlreadyExists email.value), w.next)
      else if rawPassword.rawValue = "" then
        (.error (.error "Password to hash must be a non-empty string"), w.next)
      else if w.next.down then (.error (.error "Password hashing failed"), w.next.next)
      else
        ((Password.fromHash (host.bcryptHash rawPassword.rawValue (w.salts (w.performed + 1)))).bind
          fun hashedPassword => User.create email hashedPassword firstName lastName id m,
          w.next.next) := by
  unfold newUser
  rw [Task.run_bind, run_existsByEmail]
  cases w.down with
  | true => rfl
  | false =>
    simp only [Bool.false_eq_true, if_false]
    cases (w.db.findByEmail? email.value).isSome with
    | true => rfl
    | false =>
      simp only [Bool.false_eq_true, if_false, Task.run_bind, run_hash]
      by_cases hraw : rawPassword.rawValue = ""
      · rw [if_pos hraw, if_pos hraw]
      · rw [if_neg hraw, if_neg hraw]
        cases w.next.down with
        | true => rfl
        | false =>
          simp only [Bool.false_eq_true, if_false, Task.run_ofExcept, UserWorld.next_salts,
            UserWorld.next_performed]
          cases Password.fromHash
            (host.bcryptHash rawPassword.rawValue (w.salts (w.performed + 1))) <;> rfl

theorem run_registerUser (email : Email) (rawPassword : Password) (firstName lastName : String)
    (id : UniqueId) (m : Moment) (w : UserWorld) :
    Task.run (UserOp.exec host) (registerUser host email rawPassword firstName lastName id m) w =
      match Task.run (UserOp.exec host) (newUser email rawPassword firstName lastName id m) w with
      | (.error e, w') => (.error e, w')
      | (.ok user, w') => Task.run (UserOp.exec host) (save host user m.now) w' := by
  unfold registerUser
  rw [Task.run_bind]
  rcases Task.run (UserOp.exec host) (newUser email rawPassword firstName lastName id m) w
    with ⟨r, w'⟩
  cases r with
  | error e => rfl
  | ok user => exact run_persistAndDispatch user m.now w'

/-- What `newUser` hands to `save`. -/
theorem run_newUser_eq_ok {email : Email} {rawPassword : Password} {firstName lastName : String}
    {id : UniqueId} {m : Moment} {user : User} :
    Task.run (UserOp.exec host) (newUser email rawPassword firstName lastName id m) w =
        (.ok user, w') ↔
      w.db.findByEmail? email.value = none ∧ rawPassword.rawValue ≠ "" ∧
        host.bcryptHash rawPassword.rawValue (w.salts (w.performed + 1)) ≠ "" ∧
        w.down = false ∧ w.next.down = false ∧
        User.create email
          ⟨"", some (host.bcryptHash rawPassword.rawValue (w.salts (w.performed + 1)))⟩
          firstName lastName id m = .ok user ∧ w' = w.next.next := by
  rw [run_newUser]
  cases w.down with
  | true => simp
  | false =>
    cases w.db.findByEmail? email.value with
    | some row => simp
    | none =>
      by_cases hraw : rawPassword.rawValue = ""
      · simp [hraw]
      · cases w.next.down with
        | true => simp [hraw]
        | false =>
          unfold Password.fromHash
          by_cases hhash : host.bcryptHash rawPassword.rawValue (w.salts (w.performed + 1)) = ""
          · simp [hraw, hhash, Except.bind]
          · simp [hraw, hhash, Except.bind, eq_comm]

/-! ### Before the entity is saved, nothing is published -/

/-- The function publishes nothing. -/
abbrev Silent (host : Host) {α : Type} (p : UserTask α) : Prop :=
  Task.Preserves (UserOp.exec host) UserWorld.published p

theorem silent_await {o : UserOp} (h : ∀ events, o ≠ .publish events) :
    Silent host (Task.await o : UserTask o.Ans) := by
  intro w
  rw [Task.run_await]
  unfold UserOp.exec
  split
  · rfl
  · cases o with
    | publish events => exact absurd rfl (h events)
    | _ => rfl

theorem silent_findById (id : UniqueId) : Silent host (findById host id) := by
  refine .tryCatch (.bind (silent_await nofun) fun row => ?_) fun _ => .throw _
  cases row with
  | none => exact .throw _
  | some row => exact .ofExcept _

theorem silent_findByEmail (email : Email) : Silent host (findByEmail host email) := by
  refine .tryCatch (.bind (silent_await nofun) fun row => ?_) fun _ => .throw _
  cases row with
  | none => exact .throw _
  | some row => exact .ofExcept _

theorem silent_hash (plainText : String) : Silent host (PasswordHasherImpl.hash plainText) :=
  .ite (.throw _) (.tryCatch (silent_await nofun) fun _ => .throw _)

theorem silent_compare (plainText hashedValue : String) :
    Silent host (PasswordHasherImpl.compare plainText hashedValue) :=
  .ite (.throw _) (.ite (.throw _) (.tryCatch (silent_await nofun) fun _ => .pure _))

theorem silent_onEntity {α : Type} (method : User.Method α) (user : User) :
    Silent host (onEntity method user) := by
  intro w
  rw [run_onEntity]
  rcases method.call user with ⟨r, u⟩
  cases r <;> rfl

theorem silent_newUser (email : Email) (rawPassword : Password) (firstName lastName : String)
    (id : UniqueId) (m : Moment) :
    Silent host (newUser email rawPassword firstName lastName id m) := by
  refine .bind (.tryCatch (.bind (silent_await nofun) fun _ => .pure _) fun _ => .throw _)
    fun emailExists => ?_
  have hrest : Silent host (do
      let hash ← PasswordHasherImpl.hash rawPassword.rawValue
      let hashedPassword ← Task.ofExcept (Password.fromHash hash)
      Task.ofExcept (User.create email hashedPassword firstName lastName id m)) :=
    .bind (silent_hash _) fun _ => .bind (.ofExcept _) fun _ => .ofExcept _
  cases emailExists with
  | true => exact .throw _
  | false => exact hrest

theorem silent_loggedIn (email : Email) (rawPassword : String) (m : Moment) :
    Silent host (loggedIn host email rawPassword m) := by
  refine .bind (.tryCatch (.bind (silent_findByEmail _) fun _ => .pure _) fun _ => .pure _)
    fun found => ?_
  cases found with
  | none => exact .pure _
  | some user =>
    dsimp only
    cases user.password.hashedValue with
    | none => exact .pure _
    | some storedHash =>
      exact .ite (.pure _) (.bind (silent_compare _ _) fun _ =>
        .ite (.pure _) (.bind (silent_onEntity _ _) fun _ => .pure _))

theorem silent_withNewPassword (userId currentPasswordRaw : String) (newPassword : Password)
    (m : Moment) : Silent host (withNewPassword host userId currentPasswordRaw newPassword m) := by
  refine .bind (.ofExcept _) fun id => .bind (silent_findById _) fun user => ?_
  cases user.password.hashedValue with
  | none => exact .pure _
  | some storedHash =>
    exact .ite (.pure _) (.bind (silent_compare _ _) fun _ =>
      .ite (.pure _) (.bind (silent_hash _) fun _ => .bind (.ofExcept _) fun _ =>
        .bind (silent_onEntity _ _) fun _ => .pure _))

end

end UserDomainService

/-! ## What is published -/

/-- A call of the service. -/
inductive ServiceCall where
  | registerUser (email : Email) (rawPassword : Password) (firstName lastName : String)
      (id : UniqueId)
  | authenticate (email : Email) (rawPassword : String)
  | changePassword (userId currentPasswordRaw : String) (newPassword : Password)

namespace ServiceCall

variable (host : Host)

/-- The entity the call saves, once it gets that far. -/
def entity (m : Moment) : ServiceCall → UserTask (Option User)
  | registerUser email rawPassword firstName lastName id => do
    let user ← UserDomainService.newUser email rawPassword firstName lastName id m
    return some user
  | authenticate email rawPassword => UserDomainService.loggedIn host email rawPassword m
  | changePassword userId currentPasswordRaw newPassword =>
    UserDomainService.withNewPassword host userId currentPasswordRaw newPassword m

/-- The call; whether it succeeds is whether it answers anything but `null` and `false`. -/
def perform (m : Moment) : ServiceCall → UserTask Bool
  | registerUser email rawPassword firstName lastName id => do
    let _ ← UserDomainService.registerUser host email rawPassword firstName lastName id m
    return true
  | authenticate email rawPassword => do
    let user ← UserDomainService.authenticate host email rawPassword m
    return user.isSome
  | changePassword userId currentPasswordRaw newPassword =>
    UserDomainService.changePassword host userId currentPasswordRaw newPassword m

end ServiceCall

/-- A successful call publishes exactly the events its entity has raised, in
order and once each, and any other call publishes nothing. -/
def PublishesRaised (host : Host) (c : ServiceCall) (m : Moment) (w : UserWorld) : Prop :=
  let call := Task.run (UserOp.exec host) (c.perform host m) w
  if call.1 = .ok true then
    ∃ user w₁ batches, Task.run (UserOp.exec host) (c.entity host m) w = (.ok (some user), w₁) ∧
      call.2.published = w.published ++ batches ∧ batches.flatten = user.domainEvents
  else call.2.published = w.published

section

open UserRepositoryImpl UserDomainService

variable {host : Host} {c : ServiceCall} {m : Moment} {w : UserWorld}

/-- **Every call** finds its entity and then saves it. -/
theorem run_perform (c : ServiceCall) (m : Moment) (w : UserWorld) :
    Task.run (UserOp.exec host) (c.perform host m) w =
      match Task.run (UserOp.exec host) (c.entity host m) w with
      | (.ok (some user), w₁) =>
        ((Task.run (UserOp.exec host) (save host user m.now) w₁).1.map fun _ => true,
          (Task.run (UserOp.exec host) (save host user m.now) w₁).2)
      | (.ok none, w₁) => (.ok false, w₁)
      | (.error e, w₁) => (.error e, w₁) := by
  cases c with
  | registerUser email rawPassword firstName lastName id =>
    simp only [ServiceCall.perform, ServiceCall.entity, registerUser, Task.run_bind, Task.run_pure]
    rcases Task.run (UserOp.exec host) (newUser email rawPassword firstName lastName id m) w with
      ⟨r, w₁⟩
    cases r with
    | error e => rfl
    | ok user =>
      dsimp only
      rw [run_persistAndDispatch]
      rcases Task.run (UserOp.exec host) (save host user m.now) w₁ with ⟨r', w'⟩
      cases r' <;> rfl
  | authenticate email rawPassword =>
    simp only [ServiceCall.perform, ServiceCall.entity, authenticate, Task.run_bind, Task.run_pure]
    rcases Task.run (UserOp.exec host) (loggedIn host email rawPassword m) w with ⟨r, w₁⟩
    cases r with
    | error e => rfl
    | ok found =>
      cases found with
      | none => rfl
      | some user =>
        simp only [Task.run_bind, run_persistAndDispatch]
        rcases Task.run (UserOp.exec host) (save host user m.now) w₁ with ⟨r', w'⟩
        cases r' <;> rfl
  | changePassword userId currentPasswordRaw newPassword =>
    simp only [ServiceCall.perform, ServiceCall.entity, changePassword, Task.run_bind]
    rcases Task.run (UserOp.exec host)
      (withNewPassword host userId currentPasswordRaw newPassword m) w with ⟨r, w₁⟩
    cases r with
    | error e => rfl
    | ok found =>
      cases found with
      | none => rfl
      | some user =>
        simp only [Task.run_bind, run_persistAndDispatch]
        rcases Task.run (UserOp.exec host) (save host user m.now) w₁ with ⟨r', w'⟩
        cases r' <;> rfl

theorem silent_entity : Silent host (c.entity host m) := by
  cases c with
  | registerUser email rawPassword firstName lastName id =>
    exact .bind (silent_newUser _ _ _ _ _ _) fun _ => .pure _
  | authenticate email rawPassword => exact silent_loggedIn _ _ _
  | changePassword userId currentPasswordRaw newPassword => exact silent_withNewPassword _ _ _ _

/-- **No call publishes anything.** -/
theorem silent_perform : Silent host (c.perform host m) := by
  intro w
  rw [run_perform]
  have hentity : (Task.run (UserOp.exec host) (c.entity host m) w).2.published = w.published :=
    silent_entity w
  rcases hrun : Task.run (UserOp.exec host) (c.entity host m) w with ⟨r, w₁⟩
  rw [hrun] at hentity
  cases r with
  | error e => exact hentity
  | ok found =>
    cases found with
    | none => exact hentity
    | some user => exact (run_save_published user m.now w₁).trans hentity

/-- A registration that goes through: the address is new, the password and its
hash are not empty, the names are valid, no operation fails and the table takes
the row. -/
def RegistrationGoesThrough (host : Host) (m : Moment) (w : UserWorld) : ServiceCall → Prop
  | .registerUser email rawPassword firstName lastName id =>
    let hash := host.bcryptHash rawPassword.rawValue (w.salts (w.performed + 1))
    w.db.findByEmail? email.value = none ∧ rawPassword.rawValue ≠ "" ∧ hash ≠ "" ∧
      w.down = false ∧ w.next.down = false ∧ w.next.next.down = false ∧
      w.next.next.next.down = false ∧
      ∃ user, User.create email ⟨"", some hash⟩ firstName lastName id m = .ok user ∧
        Accepts w.db w.clock user m.now
  | _ => False

/-- What `User.create` makes. -/
theorem create_eq_ok {email : Email} {password : Password} {firstName lastName : String}
    {id : UniqueId} {user : User}
    (h : User.create email password firstName lastName id m = .ok user) :
    user.id = id ∧ user.password = password ∧
      user.domainEvents = [⟨m.eventId, id, m.now, .userCreated email.value⟩] := by
  obtain ⟨-, -, h⟩ := bind_eq_ok.1 h
  obtain ⟨-, -, h⟩ := bind_eq_ok.1 h
  cases h
  exact ⟨rfl, rfl, rfl⟩

/-- The row of an entity with a hash maps back. -/
theorem exists_toDomain_savedRow (host : Host) (db : UserDb) (clock now : Date) (user : User)
    {hash : String}
    (hhash : user.password.hashedValue = some hash) (hne : hash ≠ "") :
    ∃ u, toDomain host (savedRow db clock user now) = .ok u := by
  have hv4 : isUuidV4 (savedRow db clock user now).id.text = true := by
    rw [savedRow_id]
    exact isUuidV4_lowerAscii user.id.wellFormed
  refine ⟨_, toDomain_eq_ok.2 ⟨hv4, ?_, rfl⟩⟩
  show varChar 255 (givenRow db clock user now).passwordHash ≠ ""
  rw [Ne, varChar_eq_empty (Nat.succ_pos 254)]
  unfold givenRow
  cases db.findById? user.id.dbUuid with
  | none =>
    show user.password.hashedValue.getD "" ≠ ""
    rw [hhash]
    exact hne
  | some row =>
    show user.password.hashedValue.getD row.passwordHash ≠ ""
    rw [hhash]
    exact hne

/-- An entity that was loaded has raised nothing, neither by a login nor by a new password. -/
theorem domainEvents_of_entity {user : User} {w₁ : UserWorld}
    (hrun : Task.run (UserOp.exec host) (c.entity host m) w = (.ok (some user), w₁))
    (hc : ∀ email rawPassword firstName lastName id,
      c ≠ .registerUser email rawPassword firstName lastName id) : user.domainEvents = [] := by
  cases c with
  | registerUser email rawPassword firstName lastName id => exact absurd rfl (hc _ _ _ _ _)
  | authenticate email rawPassword =>
    obtain ⟨row, h, -, -, -, -, -, -, -, rfl, -⟩ := run_loggedIn_eq_some.1 hrun
    rfl
  | changePassword userId currentPasswordRaw newPassword =>
    obtain ⟨id, w₂, -, hrun⟩ := (Task.run_bind_eq_ok _).1 hrun
    obtain ⟨loaded, w₃, hfound, hrun⟩ := (Task.run_bind_eq_ok _).1 hrun
    obtain ⟨-, -, row, -, hmap⟩ := run_findById_eq_ok.1 hfound
    obtain ⟨h, -, hloaded⟩ := toDomain_eq_ok.1 hmap
    have hnone : loaded.domainEvents = [] := by
      rw [hloaded]
      rfl
    cases hhash : loaded.password.hashedValue with
    | none => simp [hhash] at hrun
    | some storedHash =>
      simp only [hhash, Task.run_ite] at hrun
      split_ifs at hrun with hempty
      · simp at hrun
      · obtain ⟨isValid, w₄, -, hrun⟩ := (Task.run_bind_eq_ok _).1 hrun
        rw [Task.run_ite] at hrun
        split_ifs at hrun with hvalid
        · simp at hrun
        · obtain ⟨newHash, w₅, -, hrun⟩ := (Task.run_bind_eq_ok _).1 hrun
          obtain ⟨hashed, w₆, -, hrun⟩ := (Task.run_bind_eq_ok _).1 hrun
          obtain ⟨⟨_, u⟩, w₇, hcall, hrun⟩ := (Task.run_bind_eq_ok _).1 hrun
          rw [run_onEntity, User.call_changePassword] at hcall
          cases hcall
          cases hrun
          exact hnone

/-- A call succeeds when it finds its entity and `save` takes it. -/
theorem run_perform_eq_true :
    (Task.run (UserOp.exec host) (c.perform host m) w).1 = .ok true ↔
      ∃ user w₁ u w', Task.run (UserOp.exec host) (c.entity host m) w = (.ok (some user), w₁) ∧
        Task.run (UserOp.exec host) (save host user m.now) w₁ = (.ok u, w') := by
  rw [run_perform]
  rcases Task.run (UserOp.exec host) (c.entity host m) w with ⟨r, w₁⟩
  cases r with
  | error e => simp
  | ok found =>
    cases found with
    | none => simp
    | some user =>
      dsimp only
      rcases hsave : Task.run (UserOp.exec host) (save host user m.now) w₁ with ⟨r', w'⟩
      cases r' with
      | error e =>
        constructor
        · exact nofun
        · rintro ⟨_, _, u, w'', ⟨⟩, hsaved⟩
          exact nomatch hsave.symm.trans hsaved
      | ok u => exact ⟨fun _ => ⟨user, w₁, u, w', rfl, hsave⟩, fun _ => rfl⟩

theorem run_registerUser_eq_true {email : Email} {rawPassword : Password}
    {firstName lastName : String} {id : UniqueId} :
    (Task.run (UserOp.exec host) ((ServiceCall.registerUser email rawPassword firstName lastName
        id).perform host m) w).1 = .ok true ↔
      RegistrationGoesThrough host m w (.registerUser email rawPassword firstName lastName id) := by
  rw [run_perform_eq_true]
  constructor
  · rintro ⟨user, w₁, u, w', hentity, hsave⟩
    obtain ⟨user', w₂, hnew, hsome⟩ := (Task.run_bind_eq_ok _).1 hentity
    cases hsome
    obtain ⟨hfree, hraw, hhash, hup₀, hup₁, hcreate, rfl⟩ := run_newUser_eq_ok.1 hnew
    obtain ⟨hup₂, hup₃, haccepts, -, -⟩ := run_save_eq_ok.1 hsave
    exact ⟨hfree, hraw, hhash, hup₀, hup₁, hup₂, hup₃, user, hcreate, haccepts⟩
  · rintro ⟨hfree, hraw, hhash, hup₀, hup₁, hup₂, hup₃, user, hcreate, haccepts⟩
    have hpassword := (create_eq_ok hcreate).2.1
    obtain ⟨u, hmap⟩ := exists_toDomain_savedRow host w.db w.clock m.now user (by rw [hpassword])
      hhash
    exact ⟨user, w.next.next, u, _,
      (Task.run_bind_eq_ok _).2 ⟨user, _, run_newUser_eq_ok.2
        ⟨hfree, hraw, hhash, hup₀, hup₁, hcreate, rfl⟩, rfl⟩,
      run_save_eq_ok.2 ⟨hup₂, hup₃, haccepts, hmap, rfl⟩⟩

/-- The rule, now that nothing is ever published: the entity has raised nothing. -/
theorem publishesRaised_iff_raises_nothing :
    PublishesRaised host c m w ↔
      ((Task.run (UserOp.exec host) (c.perform host m) w).1 = .ok true →
        ∃ user w₁, Task.run (UserOp.exec host) (c.entity host m) w = (.ok (some user), w₁) ∧
          user.domainEvents = []) := by
  have hsilent : (Task.run (UserOp.exec host) (c.perform host m) w).2.published = w.published :=
    silent_perform w
  unfold PublishesRaised
  dsimp only
  split_ifs with hr
  · constructor
    · rintro ⟨user, w₁, batches, hentity, hpublished, hevents⟩ -
      rw [hsilent, List.self_eq_append_right] at hpublished
      subst hpublished
      exact ⟨user, w₁, hentity, hevents.symm⟩
    · intro h
      obtain ⟨user, w₁, hentity, hnone⟩ := h hr
      exact ⟨user, w₁, [], hentity, by rw [hsilent, List.append_nil], by rw [hnone]; rfl⟩
  · exact ⟨fun _ h => absurd h hr, fun _ => hsilent⟩

/-- A registration that goes through has raised `UserCreated`. -/
theorem RegistrationGoesThrough.not_publishesRaised (h : RegistrationGoesThrough host m w c) :
    ¬ PublishesRaised host c m w := by
  cases c with
  | registerUser email rawPassword firstName lastName id =>
    rw [publishesRaised_iff_raises_nothing]
    intro hraised
    obtain ⟨user, w₁, hentity, hnone⟩ := hraised (run_registerUser_eq_true.2 h)
    obtain ⟨user', w₂, hnew, hsome⟩ := (Task.run_bind_eq_ok _).1 hentity
    cases hsome
    obtain ⟨-, -, -, -, -, hcreate, -⟩ := run_newUser_eq_ok.1 hnew
    exact nomatch hnone.symm.trans (create_eq_ok hcreate).2.2
  | _ => exact h.elim

end

/-- **Events published are the events raised**, except by a registration that
goes through: its entity has raised `UserCreated`, and nothing is published. -/
theorem publishesRaised_iff (host : Host) (c : ServiceCall) (m : Moment) (w : UserWorld) :
    PublishesRaised host c m w ↔ ¬ RegistrationGoesThrough host m w c := by
  refine ⟨fun hraised hgoes => hgoes.not_publishesRaised hraised, fun hnot => ?_⟩
  rw [publishesRaised_iff_raises_nothing]
  intro hr
  obtain ⟨user, w₁, -, -, hentity, -⟩ := run_perform_eq_true.1 hr
  refine ⟨user, w₁, hentity, domainEvents_of_entity hentity ?_⟩
  rintro email rawPassword firstName lastName id rfl
  exact hnot (run_registerUser_eq_true.1 hr)

/-- A host for the runs on fixed inputs. -/
def plainHost : Host where
  toLowerCase := lowerAscii
  bcryptHash plain salt := salt ++ plain
  bcryptCompare plain hashed := hashed == "$2a$12$" ++ plain

theorem lowerCases_plainHost : LowerCases plainHost := by
  intro s
  show lowerAscii (trim (lowerAscii (trim s))) = lowerAscii (trim s)
  rw [trim_lowerAscii, trim_trim, lowerAscii_lowerAscii]

/-- A table without rows. -/
def emptyDb : UserDb := ⟨.empty _, List.nodup_nil⟩

/-- A world in which nothing fails. -/
def calmWorld (db : UserDb) : UserWorld :=
  { db := db, clock := 0, published := [], salts := fun _ => "$2a$12$", faults := fun _ => false,
    performed := 0 }

theorem isUuidV4_grace : isUuidV4 "00000000-0000-4000-8000-00000000000b" = true := by decide +kernel

/-- The identifier of a user, for the runs on fixed inputs. -/
def grace : UniqueId := ⟨"00000000-0000-4000-8000-00000000000b", isUuidV4_grace⟩

theorem registrationGoesThrough_emptyDb :
    RegistrationGoesThrough plainHost ⟨0, grace⟩ (calmWorld emptyDb)
      (.registerUser ⟨"grace@example.com"⟩ ⟨"Str0ng!Pass", none⟩ "Grace" "Hopper" grace) := by
  refine ⟨rfl, by decide, by decide, rfl, rfl, rfl, rfl, _, rfl, ⟨?_, ?_, ?_⟩⟩
  · exact nofun
  · decide +kernel
  · exact nofun

/-- A new user is registered and the publisher hears nothing of it. -/
theorem not_publishesRaised :
    ¬ ∀ (host : Host) (c : ServiceCall) (m : Moment) (w : UserWorld), PublishesRaised host c m w :=
  fun h => registrationGoesThrough_emptyDb.not_publishesRaised (h _ _ _ _)

/-! ## Who logs in -/

/-- `Specification<User>`. -/
abbrev UserSpecification : Type := User → Bool

/-- `left.and(right)`. -/
def UserSpecification.and (left right : UserSpecification) : UserSpecification :=
  fun user => left user && right user

/-- `UserActiveSpec`. -/
def UserActiveSpec : UserSpecification := fun user => user.status = .active

/-- `UserEmailVerifiedSpec`. -/
def UserEmailVerifiedSpec : UserSpecification := fun user => user.emailVerified

/-- `UserCanLoginSpec`. -/
def UserCanLoginSpec : UserSpecification := UserActiveSpec.and UserEmailVerifiedSpec

/-- The specification and the method of the entity agree. -/
theorem userCanLoginSpec_eq_canLogin : UserCanLoginSpec = User.canLogin := rfl

/-- An authentication that goes through: the row of the address is `ACTIVE`, the
password matches its hash, no operation fails and the table takes the row. -/
def AuthenticationGoesThrough (host : Host) (email : Email) (rawPassword : String) (m : Moment)
    (w : UserWorld) (row : UserRow) : Prop :=
  w.db.findByEmail? email.value = some row ∧ row.passwordHash ≠ "" ∧ rawPassword ≠ "" ∧
    host.bcryptCompare rawPassword row.passwordHash = true ∧ row.status = .active ∧
    w.down = false ∧ w.next.down = false ∧ w.next.next.down = false ∧
    w.next.next.next.down = false ∧
    ∃ h : isUuidV4 row.id.text = true, UserRepositoryImpl.Accepts w.db w.clock
      ((UserRepositoryImpl.entity host row h).loginRecorded m) m.now

/-- `authenticate` lets only users in who can log in. -/
def LetsInVerified (host : Host) (email : Email) (rawPassword : String) (m : Moment)
    (w : UserWorld) : Prop :=
  ∀ user w', Task.run (UserOp.exec host)
      (UserDomainService.authenticate host email rawPassword m) w = (.ok (some user), w') →
    ∃ row stored, w.db.findByEmail? email.value = some row ∧
      UserRepositoryImpl.toDomain host row = .ok stored ∧ UserCanLoginSpec stored = true

section

open UserRepositoryImpl UserDomainService

variable {host : Host} {email : Email} {rawPassword : String} {m : Moment} {w : UserWorld}

theorem run_authenticate_eq_some :
    (∃ user w', Task.run (UserOp.exec host) (authenticate host email rawPassword m) w =
        (.ok (some user), w')) ↔
      ∃ row, AuthenticationGoesThrough host email rawPassword m w row := by
  constructor
  · rintro ⟨user, w', hrun⟩
    obtain ⟨found, w₁, hlogged, hrest⟩ := (Task.run_bind_eq_ok _).1 hrun
    cases found with
    | none => exact nomatch hrest
    | some loaded =>
      obtain ⟨saved, w₂, hpersist, -⟩ := (Task.run_bind_eq_ok _).1 hrest
      rw [run_persistAndDispatch] at hpersist
      obtain ⟨row, h, hrow, hhash, hpassword, hmatch, hactive, hup₀, hup₁, rfl, rfl⟩ :=
        run_loggedIn_eq_some.1 hlogged
      obtain ⟨hup₂, hup₃, haccepts, -, -⟩ := run_save_eq_ok.1 hpersist
      exact ⟨row, hrow, hhash, hpassword, hmatch, hactive, hup₀, hup₁, hup₂, hup₃, h, haccepts⟩
  · rintro ⟨row, hrow, hhash, hpassword, hmatch, hactive, hup₀, hup₁, hup₂, hup₃, h, haccepts⟩
    have hlogged : Task.run (UserOp.exec host) (loggedIn host email rawPassword m) w =
        (.ok (some ((entity host row h).loginRecorded m)), w.next.next) :=
      run_loggedIn_eq_some.2 ⟨row, h, hrow, hhash, hpassword, hmatch, hactive, hup₀, hup₁, rfl, rfl⟩
    obtain ⟨u, hmap⟩ := exists_toDomain_savedRow host w.db w.clock m.now
      ((entity host row h).loginRecorded m) rfl hhash
    have hsave := run_save_eq_ok.2 ⟨hup₂, hup₃, haccepts, hmap, rfl⟩
    refine ⟨u, _, (Task.run_bind_eq_ok _).2 ⟨_, _, hlogged, (Task.run_bind_eq_ok _).2
      ⟨u, _, (run_persistAndDispatch _ _ _).trans hsave, rfl⟩⟩⟩

/-- Only a row in order stands behind a user who can log in. -/
theorem LetsInVerified.emailVerified (h : LetsInVerified host email rawPassword m w) {row : UserRow}
    (hgoes : AuthenticationGoesThrough host email rawPassword m w row) :
    row.emailVerified = true := by
  obtain ⟨user, w', hrun⟩ := run_authenticate_eq_some.2 ⟨row, hgoes⟩
  obtain ⟨row', stored, hrow', hmap, hcan⟩ := h user w' hrun
  obtain rfl : row = row' := Option.some.inj (hgoes.1.symm.trans hrow')
  obtain ⟨_, -, rfl⟩ := toDomain_eq_ok.1 hmap
  rw [userCanLoginSpec_eq_canLogin, User.canLogin, Bool.and_eq_true] at hcan
  exact hcan.2

end

/-- The tables that come from storing users made by `User.create`, each changed
by any calls of its methods before it is stored, and again after it is loaded. -/
inductive StoredUsers (host : Host) : UserDb → Prop where
  | empty : StoredUsers host emptyDb
  | created {db : UserDb} {email : Email} {password : Password} {firstName lastName : String}
      {id : UniqueId} {m : Moment} {user : User} {calls : List (UserCall × Moment)}
      {clock now : Date} :
      StoredUsers host db → User.create email password firstName lastName id m = .ok user →
      StoredUsers host (UserRepositoryImpl.saved db clock (user.afterCalls calls) now).2
  | changed {db : UserDb} {id : DbUuid} {row : UserRow} {user : User}
      {calls : List (UserCall × Moment)} {clock now : Date} :
      StoredUsers host db → db.findById? id = some row →
      UserRepositoryImpl.toDomain host row = .ok user →
      StoredUsers host (UserRepositoryImpl.saved db clock (user.afterCalls calls) now).2

/-- A user as `User.create` makes it at time `0`. -/
def gracesUser : User :=
  { id := grace, email := ⟨"grace@example.com"⟩, password := ⟨"", some "$2a$12$Str0ng!Pass"⟩,
    firstName := "Grace", lastName := "Hopper", status := .pendingVerification,
    emailVerified := false, lastLoginAt := none, version := 1, createdAt := 0, updatedAt := 0,
    domainEvents := [⟨grace, grace, 0, .userCreated "grace@example.com"⟩] }

/-- Her row once an administrator has activated her, her address not verified. -/
def gracesRow : UserRow :=
  { id := grace.dbUuid, email := "grace@example.com", passwordHash := "$2a$12$Str0ng!Pass",
    firstName := "Grace", lastName := "Hopper", status := .active, emailVerified := false,
    lastLoginAt := none, createdAt := 0, updatedAt := 0, version := 2 }

/-- The table with her row. -/
def gracesDb : UserDb := emptyDb.put gracesRow nofun

theorem storedUsers_gracesDb : StoredUsers plainHost gracesDb := by
  have hcreate : User.create gracesUser.email gracesUser.password "Grace" "Hopper" grace
      ⟨0, grace⟩ = .ok gracesUser := rfl
  show StoredUsers plainHost (UserRepositoryImpl.saved emptyDb 0
    (gracesUser.afterCalls [(.activate, ⟨0, grace⟩)]) 0).2
  exact .created .empty hcreate

theorem authenticationGoesThrough_grace :
    AuthenticationGoesThrough plainHost ⟨"grace@example.com"⟩ "Str0ng!Pass" ⟨1, grace⟩
      (calmWorld gracesDb) gracesRow := by
  refine ⟨by decide +kernel, by decide, by decide, by decide +kernel, rfl, rfl, rfl, rfl, rfl,
    by decide +kernel, ⟨?_, by decide +kernel, by decide +kernel⟩⟩
  intro row hrow
  obtain rfl : gracesRow = row := Option.some.inj hrow
  exact ⟨rfl, by decide +kernel⟩

end EnterpriseSystem.Identity
