import EnterpriseSystem.Base.Async
import EnterpriseSystem.Base.Table
import EnterpriseSystem.Identity.UserRepository

/-!
# The session store

The `sessions` of `prisma/schema.prisma`, and the operations that
`src/security/authentication` awaits.

* `Session`, `SessionWhere` — a row, and what a query asks of the rows.
* `SessionOp`, `SessionWorld`, `SessionOp.exec` — the operations; each may fail on
  its own account, and then it changes nothing.
-/

namespace EnterpriseSystem.Authentication

open Identity Relational Concurrency

/-! ## Rows -/

/-- A row of `sessions`. -/
structure Session where
  id : DbUuid
  userId : DbUuid
  /-- The hash of the random part of the refresh token. -/
  refreshToken : String
  userAgent : Option String
  ipAddress : Option String
  expiresAt : Date
  createdAt : Date
  revokedAt : Option Date
  deriving DecidableEq

/-- A role, as `include` loads it. -/
structure Role where
  name : String
  permissions : List String
  deriving DecidableEq

/-- What is read of a row of `users`, with its roles. -/
structure Account where
  id : DbUuid
  email : String
  status : UserStatus
  roles : List Role
  deriving DecidableEq

/-- What `session.create` is given. -/
structure SessionData where
  userId : String
  refreshToken : String
  userAgent : Option String
  ipAddress : Option String
  expiresAt : Date

/-- The `where` of a query: what it does not mention is absent. -/
structure SessionWhere where
  userId : Option String := none
  /-- `revokedAt: null`, or `revokedAt: { not: null }`. -/
  revoked : Option Bool := none
  /-- `expiresAt: { gt: … }`. -/
  expiresAfter : Option Date := none
  /-- `expiresAt: { lt: … }`. -/
  expiresBefore : Option Date := none

/-! ## Operations -/

/-- `{ type, title, status, detail, code }` of an `UnauthorizedException`. -/
structure Problem where
  type : String
  title : String
  status : ℕ
  detail : String
  code : String
  deriving DecidableEq

/-- What is thrown. -/
inductive AuthError where
  | unauthorized (problem : Problem)
  /-- The client of the database rejects, or `bcryptjs` does. -/
  | rejected (message : String)
  deriving DecidableEq

/-- The operations awaited. -/
inductive SessionOp where
  | findMany (query : SessionWhere)
  | findFirst (query : SessionWhere)
  /-- `session.update({ where: { id }, data: { revokedAt } })` -/
  | update (id : DbUuid) (revokedAt : Date)
  /-- `session.updateMany({ where, data: { revokedAt } })` -/
  | updateMany (query : SessionWhere) (revokedAt : Date)
  | deleteMany (query : SessionWhere)
  | create (data : SessionData)
  /-- `user.findUnique({ where: { id }, include: { roles } })` -/
  | findUser (id : String)
  | bcryptHash (value : String)
  | bcryptCompare (value hash : String)

/-- What an operation answers. -/
def SessionOp.Ans : SessionOp → Type
  | findMany _ => List Session
  | findFirst _ => Option Session
  | update .. => Session
  | updateMany .. => ℕ
  | deleteMany _ => ℕ
  | create _ => Session
  | findUser _ => Option Account
  | bcryptHash _ => String
  | bcryptCompare .. => Bool

/-- An asynchronous function over the session store. -/
abbrev SessionTask (α : Type) : Type := Task SessionOp SessionOp.Ans AuthError α

/-- What the code relies on outside of it: how the client reads a UUID, and
`bcryptjs`. -/
structure SessionHost where
  uuid? : String → Option DbUuid
  bcryptHash : String → String → String
  bcryptCompare : String → String → Bool

/-- The tables, the clock of the database, and, for the number of an operation, the
identifier and the salt generated there and whether it fails. -/
structure SessionWorld where
  sessions : Table Session.id
  users : DbUuid → Option Account
  clock : Date
  ids : ℕ → DbUuid
  salts : ℕ → String
  faults : ℕ → Bool
  performed : ℕ

namespace SessionWorld

/-- The world after one more operation. -/
def next (w : SessionWorld) : SessionWorld := { w with performed := w.performed + 1 }

/-- The next operation fails on its own account. -/
def down (w : SessionWorld) : Bool := w.faults w.performed

/-- The world after an operation that leaves these sessions. -/
def put (w : SessionWorld) (sessions : Table Session.id) : SessionWorld :=
  { w.next with sessions := sessions }

@[simp] theorem next_sessions (w : SessionWorld) : w.next.sessions = w.sessions := rfl

@[simp] theorem next_faults (w : SessionWorld) : w.next.faults = w.faults := rfl

@[simp] theorem next_performed (w : SessionWorld) : w.next.performed = w.performed + 1 := rfl

@[simp] theorem put_sessions (w : SessionWorld) (sessions : Table Session.id) :
    (w.put sessions).sessions = sessions := rfl

end SessionWorld

/-- What is thrown when an operation fails on its own account. -/
def unreachable : AuthError := .rejected "Can't reach database server"

/-- What is thrown for a user id that is no UUID. -/
def malformed : AuthError := .rejected "Inconsistent column data: Error creating UUID"

section

variable (host : SessionHost)

/-- Whether a row is one of those that a query asks for. -/
def SessionWhere.selects (query : SessionWhere) (s : Session) : Bool :=
  query.userId.all (fun userId => host.uuid? userId == some s.userId) &&
    query.revoked.all (s.revokedAt.isSome == ·) &&
    query.expiresAfter.all (fun t => decide (t < s.expiresAt)) &&
    query.expiresBefore.all fun t => decide (s.expiresAt < t)

/-- The client takes the query: its user id is a UUID. -/
def SessionWhere.wellTyped (query : SessionWhere) : Bool :=
  query.userId.all fun userId => (host.uuid? userId).isSome

/-- The row after its revocation. -/
def Session.revoke (revokedAt : Date) (s : Session) : Session :=
  { s with revokedAt := some revokedAt }

@[simp] theorem Session.id_revoke (revokedAt : Date) (s : Session) :
    (s.revoke revokedAt).id = s.id := rfl

/-- The row that `session.create` inserts. -/
def SessionData.row (data : SessionData) (id userId : DbUuid) (now : Date) : Session where
  id := id
  userId := userId
  refreshToken := data.refreshToken
  userAgent := data.userAgent
  ipAddress := data.ipAddress
  expiresAt := data.expiresAt
  createdAt := now
  revokedAt := none

/-- An operation that does not fail on its own account. -/
def SessionOp.perform : (o : SessionOp) → SessionWorld → Except AuthError o.Ans × SessionWorld
  | .findMany query, w =>
    if query.wellTyped host then (.ok (w.sessions.rows.filter (query.selects host)), w.next)
    else (.error malformed, w.next)
  | .findFirst query, w =>
    if query.wellTyped host then (.ok (w.sessions.rows.find? (query.selects host)), w.next)
    else (.error malformed, w.next)
  | .update id revokedAt, w =>
    match w.sessions.get? id with
    | some s => (.ok (s.revoke revokedAt), w.put (w.sessions.put (s.revoke revokedAt)))
    | none => (.error (.rejected "Record to update not found."), w.next)
  | .updateMany query revokedAt, w =>
    if query.wellTyped host then
      (.ok (w.sessions.rows.countP (query.selects host)),
        w.put (w.sessions.update (query.selects host) (Session.revoke revokedAt)
          (Session.id_revoke revokedAt)))
    else (.error malformed, w.next)
  | .deleteMany query, w =>
    if query.wellTyped host then
      (.ok (w.sessions.rows.countP (query.selects host)),
        w.put (w.sessions.remove fun s => query.selects host s = true))
    else (.error malformed, w.next)
  | .create data, w =>
    match host.uuid? data.userId with
    | none => (.error malformed, w.next)
    | some userId =>
      if w.sessions.contains (w.ids w.performed) ||
          w.sessions.rows.any (·.refreshToken == data.refreshToken) then
        (.error (.rejected "Unique constraint failed"), w.next)
      else if (w.users userId).isNone then
        (.error (.rejected "Foreign key constraint failed"), w.next)
      else
        let row := data.row (w.ids w.performed) userId w.clock
        (.ok row, w.put (w.sessions.put row))
  | .findUser id, w =>
    match host.uuid? id with
    | none => (.error malformed, w.next)
    | some userId => (.ok (w.users userId), w.next)
  | .bcryptHash value, w => (.ok (host.bcryptHash value (w.salts w.performed)), w.next)
  | .bcryptCompare value hash, w => (.ok (host.bcryptCompare value hash), w.next)

/-- One operation. -/
def SessionOp.exec (o : SessionOp) (w : SessionWorld) : Except AuthError o.Ans × SessionWorld :=
  if w.down then (.error unreachable, w.next) else o.perform host w

end

namespace SessionTask

/-- `this.prisma.session.findMany({ where })`. -/
def findMany (query : SessionWhere) : SessionTask (List Session) :=
  Task.await (SessionOp.findMany query)

/-- `this.prisma.session.findFirst({ where })`. -/
def findFirst (query : SessionWhere) : SessionTask (Option Session) :=
  Task.await (SessionOp.findFirst query)

/-- `this.prisma.session.update({ where: { id }, data: { revokedAt } })`. -/
def update (id : DbUuid) (revokedAt : Date) : SessionTask Session :=
  Task.await (SessionOp.update id revokedAt)

/-- `this.prisma.session.updateMany({ where, data: { revokedAt } })`. -/
def updateMany (query : SessionWhere) (revokedAt : Date) : SessionTask ℕ :=
  Task.await (SessionOp.updateMany query revokedAt)

/-- `this.prisma.session.deleteMany({ where })`. -/
def deleteMany (query : SessionWhere) : SessionTask ℕ := Task.await (SessionOp.deleteMany query)

/-- `this.prisma.session.create({ data })`. -/
def create (data : SessionData) : SessionTask Session := Task.await (SessionOp.create data)

/-- `this.prisma.user.findUnique({ where: { id }, include: { roles } })`. -/
def findUser (id : String) : SessionTask (Option Account) := Task.await (SessionOp.findUser id)

/-- `bcrypt.hash(value, this.bcryptRounds)`. -/
def bcryptHash (value : String) : SessionTask String := Task.await (SessionOp.bcryptHash value)

/-- `bcrypt.compare(value, hash)`. -/
def bcryptCompare (value hash : String) : SessionTask Bool :=
  Task.await (SessionOp.bcryptCompare value hash)

end SessionTask

end EnterpriseSystem.Authentication
