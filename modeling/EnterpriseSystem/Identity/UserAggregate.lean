import EnterpriseSystem.Identity.User

/-!
# The user aggregate

`src/domain/aggregates/user.aggregate.ts`: the user with its roles and sessions.

* `RoleAssignment`, `SessionInfo`, `UserAggregate` — the aggregate.
* `UserAggregate.create` … `UserAggregate.updateProfile` — its methods.
* `AggregateCall` — a call of one of the methods that can change it;
  `AggregateStep` — one such call at a time not before the previous one.
-/

namespace EnterpriseSystem.Identity

open Objects Relational

/-- `RoleAssignment`. -/
structure RoleAssignment where
  id : UniqueId
  roleId : UniqueId
  roleName : String
  grantedAt : Date
  grantedBy : Option UniqueId
  deriving DecidableEq

/-- `SessionInfo`. -/
structure SessionInfo where
  id : UniqueId
  userAgent : Option String
  ipAddress : Option String
  expiresAt : Date
  createdAt : Date
  revokedAt : Option Date
  deriving DecidableEq

/-- `UserAggregate`. -/
structure UserAggregate where
  user : User
  roles : List RoleAssignment
  sessions : List SessionInfo
  deriving DecidableEq

namespace UserAggregate

/-- A method of the aggregate. -/
abbrev Method (α : Type) : Type := Objects.Method UserAggregate Thrown α

/-- A method of the user the aggregate holds. -/
def onUser {α : Type} (method : User.Method α) : Method α :=
  Objects.Method.onPart user (fun a u => { a with user := u }) method

/-! ## Factories -/

/-- `UserAggregate.create`. -/
def create (email : Email) (password : Password) (firstName lastName : String) (id : UniqueId)
    (m : Moment) : Except Thrown UserAggregate := do
  let user ← User.create email password firstName lastName id m
  return { user := user, roles := [], sessions := [] }

/-- `UserAggregate.reconstitute`. -/
def reconstitute (user : User) (roles : Option (List RoleAssignment))
    (sessions : Option (List SessionInfo)) : UserAggregate :=
  { user := user, roles := roles.getD [], sessions := sessions.getD [] }

/-! ## Roles -/

/-- `assignRole`: no role twice. -/
def assignRole (role : RoleAssignment) : Method Unit := do
  let a ← get
  let alreadyAssigned := a.roles.any fun r => r.roleId.equals role.roleId
  if alreadyAssigned then
    let roleName := role.roleName
    throw (.error s!"Role \"{roleName}\" is already assigned to this user.")
  else
    set { a with roles := a.roles ++ [role] }

/-- `removeRole`: whether there was one to remove. -/
def removeRole (roleId : UniqueId) : Method Bool := do
  let a ← get
  let initialLength := a.roles.length
  let roles := a.roles.filter fun r => !r.roleId.equals roleId
  set { a with roles := roles }
  return roles.length < initialLength

/-- `hasRole`. -/
def hasRole (a : UserAggregate) (roleId : UniqueId) : Bool :=
  a.roles.any fun r => r.roleId.equals roleId

/-- `hasRoleByName`. -/
def hasRoleByName (a : UserAggregate) (roleName : String) : Bool :=
  a.roles.any fun r => r.roleName == roleName

/-! ## Sessions -/

/-- `addSession`: only for an active, verified user. -/
def addSession (session : SessionInfo) : Method Unit := do
  let a ← get
  if a.user.isActive = false then
    throw (.error "Cannot add a session for a non-active user.")
  else if a.user.emailVerified = false then
    throw (.error "Cannot add a session for a user with unverified email.")
  else
    set { a with sessions := a.sessions ++ [session] }

/-- `revokeSession`: the first entry of that identifier. -/
def revokeSession (sessionId : UniqueId) (m : Moment) : Method Unit := do
  let a ← get
  let sessionIndex := a.sessions.findIdx fun s => s.id.equals sessionId
  match a.sessions[sessionIndex]? with
  | none => throw (.error "Session not found.")
  | some session =>
    if session.revokedAt ≠ none then
      throw (.error "Session is already revoked.")
    else
      let revokedSession := { session with revokedAt := some m.now }
      set { a with
        sessions := a.sessions.take sessionIndex ++
          [revokedSession] ++ a.sessions.drop (sessionIndex + 1) }

/-- `getActiveSessions`, at the time `now`. -/
def getActiveSessions (a : UserAggregate) (now : Date) : List SessionInfo :=
  a.sessions.filter fun s => s.revokedAt = none && s.expiresAt > now

/-- `revokeAllSessions`. -/
def revokeAllSessions (m : Moment) : Method Unit :=
  modify fun a => { a with
    sessions := a.sessions.map fun s =>
      if s.revokedAt = none then { s with revokedAt := some m.now } else s }

/-! ## Delegated methods -/

/-- `activate`. -/
def activate (m : Moment) : Method Unit := onUser (User.activate m)

/-- `suspend`: the sessions of a suspended user are revoked. -/
def suspend (m : Moment) : Method Unit := do
  onUser (User.suspend m)
  revokeAllSessions m

/-- `deactivate`: and those of a deactivated one, also when it was inactive already. -/
def deactivate (m : Moment) : Method Unit := do
  onUser (User.deactivate m)
  revokeAllSessions m

/-- `verifyEmail`. -/
def verifyEmail (m : Moment) : Method Unit := onUser (User.verifyEmail m)

/-- `recordLogin`. -/
def recordLogin (m : Moment) : Method Unit := onUser (User.recordLogin m)

/-- `changeEmail`: the sessions stay as they are. -/
def changeEmail (newEmail : Email) (m : Moment) : Method Unit :=
  onUser (User.changeEmail newEmail m)

/-- `changePassword`. -/
def changePassword (newPassword : Password) (m : Moment) : Method Unit :=
  onUser (User.changePassword newPassword m)

/-- `updateProfile`. -/
def updateProfile (firstName lastName : String) (m : Moment) : Method Unit :=
  onUser (User.updateProfile firstName lastName m)

/-- `pullDomainEvents`. -/
def pullDomainEvents : Method (List DomainEvent) := onUser User.pullDomainEvents

end UserAggregate

/-! ## Calls -/

/-- A call of one of the aggregate's methods; the accessors only read it. -/
inductive AggregateCall where
  | activate
  | suspend
  | deactivate
  | verifyEmail
  | recordLogin
  | changeEmail (newEmail : Email)
  | changePassword (newPassword : Password)
  | updateProfile (firstName lastName : String)
  | assignRole (role : RoleAssignment)
  | removeRole (roleId : UniqueId)
  | addSession (session : SessionInfo)
  | revokeSession (sessionId : UniqueId)
  | revokeAllSessions
  | pullDomainEvents
  deriving DecidableEq

/-- The method a call names. -/
def AggregateCall.perform (m : Moment) : AggregateCall → UserAggregate.Method Unit
  | activate => UserAggregate.activate m
  | suspend => UserAggregate.suspend m
  | deactivate => UserAggregate.deactivate m
  | verifyEmail => UserAggregate.verifyEmail m
  | recordLogin => UserAggregate.recordLogin m
  | changeEmail newEmail => UserAggregate.changeEmail newEmail m
  | changePassword newPassword => UserAggregate.changePassword newPassword m
  | updateProfile firstName lastName => UserAggregate.updateProfile firstName lastName m
  | assignRole role => UserAggregate.assignRole role
  | removeRole roleId => do
    let _ ← UserAggregate.removeRole roleId
    return
  | addSession session => UserAggregate.addSession session
  | revokeSession sessionId => UserAggregate.revokeSession sessionId m
  | revokeAllSessions => UserAggregate.revokeAllSessions m
  | pullDomainEvents => do
    let _ ← UserAggregate.pullDomainEvents
    return

/-- An aggregate together with the time of the last call of it. -/
structure Clocked where
  aggregate : UserAggregate
  time : Date
  deriving DecidableEq

/-- One call, not before the previous one; the caller catches what it throws. -/
def AggregateStep (s : Clocked) (l : AggregateCall × Moment) (s' : Clocked) : Prop :=
  s.time ≤ l.2.now ∧ s' = ⟨(l.1.perform l.2).after s.aggregate, l.2.now⟩

end EnterpriseSystem.Identity
