import EnterpriseSystem.Base.Method
import EnterpriseSystem.Base.Run
import EnterpriseSystem.Identity.Values

/-!
# The user entity

`src/domain/entities/user.entity.ts`: the entity with its lifecycle, and what
its methods do to it.

* `User`, `User.create` — the entity and its factory.
* `User.activate` … `User.pullDomainEvents` — its methods.
* `UserCall` — a call of one of the methods, with its arguments;
  `UserCall.perform` is the method it names.
* `User.call_activate` and its companions — each call as one equation, which is
  all that is used about it elsewhere.
-/

namespace EnterpriseSystem.Identity

open Objects Relational

/-- `User`. -/
structure User where
  id : UniqueId
  email : Email
  password : Password
  firstName : String
  lastName : String
  status : UserStatus
  emailVerified : Bool
  lastLoginAt : Option Date
  version : ℤ
  createdAt : Date
  updatedAt : Date
  domainEvents : List DomainEvent
  deriving DecidableEq

namespace User

/-- A method of the entity. -/
abbrev Method (α : Type) : Type := Objects.Method User Thrown α

/-! ## Helpers -/

/-- `User.validateName`. -/
def validateName (name label : String) : Except Thrown Unit :=
  if name = "" ∨ utf16Length (trim name) = 0 then
    .error (.error s!"{label} must be a non-empty string.")
  else if utf16Length (trim name) > 100 then
    .error (.error s!"{label} must not exceed 100 characters.")
  else
    .ok ()

/-- `this.addDomainEvent(event)`. -/
def addDomainEvent (u : User) (event : DomainEvent) : User :=
  { u with domainEvents := u.domainEvents ++ [event] }

/-- `this.incrementVersion()`. -/
def incrementVersion (u : User) : User := { u with version := u.version + 1 }

/-- `this.markModified()`. -/
def markModified (u : User) (now : Date) : User := { u with updatedAt := now }

/-- The event of a change of the status. -/
def statusChanged (u : User) (previousStatus newStatus : UserStatus) (m : Moment) : DomainEvent :=
  { eventId := m.eventId, aggregateId := u.id, occurredAt := m.now,
    happening := .userStatusChanged previousStatus newStatus }

/-! ## Factories -/

/-- `User.create`, for the identifier `UniqueId.create()` generates. -/
def create (email : Email) (password : Password) (firstName lastName : String) (id : UniqueId)
    (m : Moment) : Except Thrown User := do
  validateName firstName "First name"
  validateName lastName "Last name"
  let user : User :=
    { id := id, email := email, password := password, firstName := trim firstName,
      lastName := trim lastName, status := .pendingVerification, emailVerified := false,
      lastLoginAt := none, version := 1, createdAt := m.now, updatedAt := m.now,
      domainEvents := [] }
  return user.addDomainEvent
    { eventId := m.eventId, aggregateId := id, occurredAt := m.now,
      happening := .userCreated email.value }

/-- `User.reconstitute`: no events are raised. -/
def reconstitute (id : UniqueId) (email : Email) (password : Password)
    (firstName lastName : String) (status : UserStatus) (emailVerified : Bool)
    (lastLoginAt : Option Date) (version : ℤ) (createdAt updatedAt : Date) : User :=
  { id, email, password, firstName, lastName, status, emailVerified, lastLoginAt, version,
    createdAt, updatedAt, domainEvents := [] }

/-! ## Methods -/

/-- `activate`: from `INACTIVE` or `PENDING_VERIFICATION` to `ACTIVE`. -/
def activate (m : Moment) : Method Unit := do
  let u ← get
  if u.status = .suspended then
    throw (.error "Cannot activate a suspended user. Use reactivation instead.")
  else if u.status = .active then
    return
  else
    let previousStatus := u.status
    let u := ({ u with status := .active }).incrementVersion.markModified m.now
    set (u.addDomainEvent (u.statusChanged previousStatus .active m))

/-- `suspend`. -/
def suspend (m : Moment) : Method Unit := do
  let u ← get
  if u.status = .suspended then
    throw (.error "User is already suspended.")
  else
    let previousStatus := u.status
    let u := ({ u with status := .suspended }).incrementVersion.markModified m.now
    set (u.addDomainEvent (u.statusChanged previousStatus .suspended m))

/-- `deactivate`: from any other status. -/
def deactivate (m : Moment) : Method Unit := do
  let u ← get
  if u.status = .inactive then
    return
  else
    let previousStatus := u.status
    let u := ({ u with status := .inactive }).incrementVersion.markModified m.now
    set (u.addDomainEvent (u.statusChanged previousStatus .inactive m))

/-- `verifyEmail`: a pending user becomes active. -/
def verifyEmail (m : Moment) : Method Unit := do
  let u ← get
  if u.emailVerified then
    throw (.error "Email is already verified.")
  else
    let u := ({ u with emailVerified := true }).incrementVersion
    if u.status = .pendingVerification then
      let previousStatus := u.status
      let u := { u with status := .active }
      set ((u.addDomainEvent (u.statusChanged previousStatus .active m)).markModified m.now)
    else
      set (u.markModified m.now)

/-- The error of a login that is not recorded. -/
def loginRefused (status : UserStatus) : Thrown :=
  let label := status.label
  .error s!"Cannot record login for user with status \"{label}\". Only ACTIVE users can log in."

/-- `recordLogin`: only for `ACTIVE` users. -/
def recordLogin (m : Moment) : Method Unit := do
  let u ← get
  if u.status ≠ .active then
    throw (loginRefused u.status)
  else
    set (({ u with lastLoginAt := some m.now }).incrementVersion.markModified m.now)

/-- `changeEmail`: the new address has to be verified again, whatever the status was. -/
def changeEmail (newEmail : Email) (m : Moment) : Method Unit := do
  let u ← get
  if u.email.equals newEmail then
    return
  else
    let u := { u with
      email := newEmail, emailVerified := false, status := .pendingVerification }
    set (u.incrementVersion.markModified m.now)

/-- `changePassword`. -/
def changePassword (newPassword : Password) (m : Moment) : Method Unit := do
  let u ← get
  set (({ u with password := newPassword }).incrementVersion.markModified m.now)

/-- `updateProfile`. -/
def updateProfile (firstName lastName : String) (m : Moment) : Method Unit := do
  Method.ofExcept (validateName firstName "First name")
  Method.ofExcept (validateName lastName "Last name")
  let u ← get
  let u := { u with firstName := trim firstName, lastName := trim lastName }
  set (u.incrementVersion.markModified m.now)

/-- `pullDomainEvents`: the events collected so far, which are forgotten. -/
def pullDomainEvents : Method (List DomainEvent) := do
  let u ← get
  let events := u.domainEvents
  set { u with domainEvents := [] }
  return events

/-- `isActive`. -/
def isActive (u : User) : Bool := u.status = .active

/-- `canLogin`. -/
def canLogin (u : User) : Bool := u.isActive && u.emailVerified

/-- `getExpectedVersion`. -/
def getExpectedVersion (u : User) : ℤ := u.version - 1

/-- `fullName`. -/
def fullName (u : User) : String := u.firstName ++ " " ++ u.lastName

/-! ## What a call leaves behind -/

/-- The user after a change of the status. -/
def moved (u : User) (newStatus : UserStatus) (m : Moment) : User :=
  { u with
    status := newStatus, version := u.version + 1, updatedAt := m.now,
    domainEvents := u.domainEvents ++ [u.statusChanged u.status newStatus m] }

/-- The user after a login. -/
def loginRecorded (u : User) (m : Moment) : User :=
  { u with lastLoginAt := some m.now, version := u.version + 1, updatedAt := m.now }

/-- The user with another password. -/
def withPassword (u : User) (newPassword : Password) (m : Moment) : User :=
  { u with password := newPassword, version := u.version + 1, updatedAt := m.now }

section

variable (u : User) (m : Moment)

theorem call_activate :
    (activate m).call u =
      if u.status = .suspended then
        (.error (.error "Cannot activate a suspended user. Use reactivation instead."), u)
      else if u.status = .active then (.ok (), u)
      else (.ok (), u.moved .active m) := by
  simp only [activate, Method.call_bind, Method.call_get, Method.call_ite]
  rfl

theorem call_suspend :
    (suspend m).call u =
      if u.status = .suspended then (.error (.error "User is already suspended."), u)
      else (.ok (), u.moved .suspended m) := by
  simp only [suspend, Method.call_bind, Method.call_get, Method.call_ite]
  rfl

theorem call_deactivate :
    (deactivate m).call u =
      if u.status = .inactive then (.ok (), u) else (.ok (), u.moved .inactive m) := by
  simp only [deactivate, Method.call_bind, Method.call_get, Method.call_ite]
  rfl

theorem call_verifyEmail :
    (verifyEmail m).call u =
      if u.emailVerified then (.error (.error "Email is already verified."), u)
      else if u.status = .pendingVerification then
        (.ok (), { u.moved .active m with emailVerified := true })
      else
        (.ok (), { u with
          emailVerified := true, version := u.version + 1, updatedAt := m.now }) := by
  simp only [verifyEmail, Method.call_bind, Method.call_get, Method.call_ite]
  split
  · rfl
  · by_cases h : u.status = .pendingVerification
    · rw [if_pos (show (incrementVersion { u with emailVerified := true }).status = _ from h),
        if_pos h]
      rfl
    · rw [if_neg (show (incrementVersion { u with emailVerified := true }).status ≠ _ from h),
        if_neg h]
      rfl

theorem call_recordLogin :
    (recordLogin m).call u =
      if u.status = .active then (.ok (), u.loginRecorded m)
      else (.error (loginRefused u.status), u) := by
  simp only [recordLogin, Method.call_bind, Method.call_get, Method.call_ite, ne_eq, ite_not]
  rfl

theorem call_changeEmail (newEmail : Email) :
    (changeEmail newEmail m).call u =
      if u.email = newEmail then (.ok (), u)
      else
        (.ok (), { u with
          email := newEmail, emailVerified := false, status := .pendingVerification,
          version := u.version + 1, updatedAt := m.now }) := by
  simp only [changeEmail, Method.call_bind, Method.call_get, Method.call_ite, Email.equals_iff]
  rfl

theorem call_changePassword (newPassword : Password) :
    (changePassword newPassword m).call u = (.ok (), u.withPassword newPassword m) := rfl

theorem call_updateProfile (firstName lastName : String) :
    (updateProfile firstName lastName m).call u =
      match validateName firstName "First name", validateName lastName "Last name" with
      | .ok (), .ok () => (.ok (), { u with
          firstName := trim firstName, lastName := trim lastName,
          version := u.version + 1, updatedAt := m.now })
      | .error e, _ => (.error e, u)
      | .ok (), .error e => (.error e, u) := by
  simp only [updateProfile, Method.call_bind, Method.call_ofExcept]
  cases validateName firstName "First name" with
  | error e => rfl
  | ok _ =>
    cases validateName lastName "Last name" with
    | error e => rfl
    | ok _ => rfl

end

end User

/-! ## Calls -/

/-- A call of one of the entity's methods. -/
inductive UserCall where
  | activate
  | suspend
  | deactivate
  | verifyEmail
  | recordLogin
  | changeEmail (newEmail : Email)
  | changePassword (newPassword : Password)
  | updateProfile (firstName lastName : String)
  | pullDomainEvents
  deriving DecidableEq

/-- The method a call names. -/
def UserCall.perform (m : Moment) : UserCall → User.Method Unit
  | activate => User.activate m
  | suspend => User.suspend m
  | deactivate => User.deactivate m
  | verifyEmail => User.verifyEmail m
  | recordLogin => User.recordLogin m
  | changeEmail newEmail => User.changeEmail newEmail m
  | changePassword newPassword => User.changePassword newPassword m
  | updateProfile firstName lastName => User.updateProfile firstName lastName m
  | pullDomainEvents => do
    let _ ← User.pullDomainEvents
    return

/-- The entity after a list of calls, each one caught when it throws. -/
def User.afterCalls (u : User) (calls : List (UserCall × Moment)) : User :=
  calls.foldl (fun u p => (p.1.perform p.2).after u) u

/-- What a call can change of the identity, the address, the password and the names. -/
structure UserCall.Frame (c : UserCall) (u u' : User) : Prop where
  id : u'.id = u.id
  createdAt : u'.createdAt = u.createdAt
  email : u'.email = u.email ∨ c = .changeEmail u'.email
  password : u'.password = u.password ∨ c = .changePassword u'.password
  names : u'.firstName = u.firstName ∧ u'.lastName = u.lastName ∨
    ∃ firstName lastName, c = .updateProfile firstName lastName ∧
      u'.firstName = trim firstName ∧ u'.lastName = trim lastName

/-- **Only `changeEmail` changes the address, only `changePassword` the password**,
only `updateProfile` the names, and nothing the identity. -/
theorem UserCall.frame (c : UserCall) (m : Moment) (u : User) :
    c.Frame u ((c.perform m).after u) := by
  unfold Method.after
  cases c with
  | activate =>
    show Frame _ u ((User.activate m).call u).2
    rw [User.call_activate]
    split_ifs <;> exact ⟨rfl, rfl, .inl rfl, .inl rfl, .inl ⟨rfl, rfl⟩⟩
  | suspend =>
    show Frame _ u ((User.suspend m).call u).2
    rw [User.call_suspend]
    split_ifs <;> exact ⟨rfl, rfl, .inl rfl, .inl rfl, .inl ⟨rfl, rfl⟩⟩
  | deactivate =>
    show Frame _ u ((User.deactivate m).call u).2
    rw [User.call_deactivate]
    split_ifs <;> exact ⟨rfl, rfl, .inl rfl, .inl rfl, .inl ⟨rfl, rfl⟩⟩
  | verifyEmail =>
    show Frame _ u ((User.verifyEmail m).call u).2
    rw [User.call_verifyEmail]
    split_ifs <;> exact ⟨rfl, rfl, .inl rfl, .inl rfl, .inl ⟨rfl, rfl⟩⟩
  | recordLogin =>
    show Frame _ u ((User.recordLogin m).call u).2
    rw [User.call_recordLogin]
    split_ifs <;> exact ⟨rfl, rfl, .inl rfl, .inl rfl, .inl ⟨rfl, rfl⟩⟩
  | changeEmail newEmail =>
    show Frame _ u ((User.changeEmail newEmail m).call u).2
    rw [User.call_changeEmail]
    split_ifs
    · exact ⟨rfl, rfl, .inl rfl, .inl rfl, .inl ⟨rfl, rfl⟩⟩
    · exact ⟨rfl, rfl, .inr rfl, .inl rfl, .inl ⟨rfl, rfl⟩⟩
  | changePassword newPassword => exact ⟨rfl, rfl, .inl rfl, .inr rfl, .inl ⟨rfl, rfl⟩⟩
  | updateProfile firstName lastName =>
    show Frame _ u ((User.updateProfile firstName lastName m).call u).2
    rw [User.call_updateProfile]
    split
    · exact ⟨rfl, rfl, .inl rfl, .inl rfl, .inr ⟨firstName, lastName, rfl, rfl, rfl⟩⟩
    · exact ⟨rfl, rfl, .inl rfl, .inl rfl, .inl ⟨rfl, rfl⟩⟩
    · exact ⟨rfl, rfl, .inl rfl, .inl rfl, .inl ⟨rfl, rfl⟩⟩
  | pullDomainEvents => exact ⟨rfl, rfl, .inl rfl, .inl rfl, .inl ⟨rfl, rfl⟩⟩

/-- **The identity of an entity never changes.** -/
theorem UserCall.id_after (c : UserCall) (m : Moment) (u : User) :
    ((c.perform m).after u).id = u.id := (c.frame m u).id

theorem User.id_afterCalls (u : User) (calls : List (UserCall × Moment)) :
    (u.afterCalls calls).id = u.id := by
  induction calls generalizing u with
  | nil => rfl
  | cons p calls ih => exact (ih _).trans (p.1.id_after p.2 u)

/-- The address of an entity is the one it had, or one it was given. -/
theorem User.email_afterCalls (u : User) (calls : List (UserCall × Moment)) :
    (u.afterCalls calls).email = u.email ∨
      ∃ p ∈ calls, p.1 = .changeEmail (u.afterCalls calls).email := by
  induction calls generalizing u with
  | nil => exact Or.inl rfl
  | cons p calls ih =>
    rcases ih ((p.1.perform p.2).after u) with hsame | ⟨q, hq, hnew⟩
    · rcases (p.1.frame p.2 u).email with hfirst | hfirst
      · exact Or.inl (hsame.trans hfirst)
      · exact Or.inr ⟨p, List.mem_cons_self .., hfirst.trans (congrArg _ hsame.symm)⟩
    · exact Or.inr ⟨q, List.mem_cons_of_mem _ hq, hnew⟩

/-- The password of an entity is the one it had, or one it was given. -/
theorem User.password_afterCalls (u : User) (calls : List (UserCall × Moment)) :
    (u.afterCalls calls).password = u.password ∨
      ∃ p ∈ calls, ∃ newPassword, p.1 = .changePassword newPassword ∧
        (u.afterCalls calls).password = newPassword := by
  induction calls generalizing u with
  | nil => exact Or.inl rfl
  | cons p calls ih =>
    rcases ih ((p.1.perform p.2).after u) with hsame | ⟨q, hq, hnew⟩
    · rcases (p.1.frame p.2 u).password with hfirst | hfirst
      · exact Or.inl (hsame.trans hfirst)
      · exact Or.inr ⟨p, List.mem_cons_self .., _, hfirst, hsame⟩
    · exact Or.inr ⟨q, List.mem_cons_of_mem _ hq, hnew⟩

end EnterpriseSystem.Identity
