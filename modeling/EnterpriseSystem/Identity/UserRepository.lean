import EnterpriseSystem.Base.Async
import EnterpriseSystem.Base.Table
import EnterpriseSystem.Identity.User

/-!
# The user repository

`src/infrastructure/database/repositories/user.repository.impl.ts` over the
`users` table of `prisma/schema.prisma`.

* `UserRow`, `UserDb` — the table with its primary key and its unique address,
  both as fields: a table that breaks one of them cannot be built.
* `UserOp`, `UserWorld`, `UserOp.exec` — the operations the code awaits, and
  what each one does; any of them but `publish` may fail on its own account.
* `UserRepositoryImpl.findById`, `findByEmail`, `existsByEmail`, `save` — the
  repository.
* `run_save` and its companions — each of them as one equation.
-/

namespace EnterpriseSystem.Identity

open Objects Relational Concurrency

/-! ## The table -/

/-- A row of `users`. -/
structure UserRow where
  id : DbUuid
  email : String
  passwordHash : String
  firstName : String
  lastName : String
  status : UserStatus
  emailVerified : Bool
  lastLoginAt : Option Date
  createdAt : Date
  updatedAt : Date
  version : ℤ
  deriving DecidableEq

/-- What an `Int` column holds. -/
def fitsInt (n : ℤ) : Bool := -2147483648 ≤ n && n ≤ 2147483647

/-- What a `VarChar(n)` column takes: beyond its length, blanks only. -/
def fitsVarChar (n : Nat) (s : String) : Bool :=
  (s.toList.drop n).all (· == ' ') && !s.toList.contains (Char.ofNat 0)

/-- What it keeps of a text: the blanks beyond its length are cut off. -/
def varChar (n : Nat) (s : String) : String := String.ofList (s.toList.take n)

/-- What the columns of the table take.  An address is longer only by characters
that are no blanks: both factories trim it. -/
def UserRow.fits (row : UserRow) : Bool :=
  row.email.toList.length ≤ 320 && fitsVarChar 320 row.email && fitsVarChar 255 row.passwordHash &&
    fitsVarChar 100 row.firstName && fitsVarChar 100 row.lastName && fitsInt row.version

/-- The row as the columns keep it. -/
def UserRow.kept (row : UserRow) : UserRow :=
  { row with
    passwordHash := varChar 255 row.passwordHash, firstName := varChar 100 row.firstName,
    lastName := varChar 100 row.lastName }

theorem varChar_eq_self {n : Nat} {s : String} (h : s.toList.length ≤ n) : varChar n s = s := by
  rw [varChar, List.take_of_length_le h, String.ofList_toList]

/-- A text as a `VarChar(n)` column has it. -/
structure HeldText (n : Nat) (s : String) : Prop where
  length : s.toList.length ≤ n
  noNul : Char.ofNat 0 ∉ s.toList

theorem HeldText.fits {n : Nat} {s : String} (h : HeldText n s) : fitsVarChar n s = true := by
  unfold fitsVarChar
  rw [List.drop_eq_nil_of_le h.length]
  simpa using h.noNul

theorem heldText_iff {n : Nat} {s : String} :
    HeldText n s ↔ fitsVarChar n s = true ∧ varChar n s = s := by
  constructor
  · exact fun h => ⟨h.fits, varChar_eq_self h.length⟩
  · rintro ⟨hfits, hkept⟩
    refine ⟨?_, ?_⟩
    · rw [← hkept, varChar, String.toList_ofList, List.length_take]
      exact min_le_left _ _
    · simp only [fitsVarChar, Bool.and_eq_true, Bool.not_eq_true', List.contains_eq_mem,
        decide_eq_false_iff_not] at hfits
      exact hfits.2

/-- A text that is cut is not empty afterwards. -/
theorem varChar_eq_empty {n : Nat} (hn : 0 < n) {s : String} : varChar n s = "" ↔ s = "" := by
  unfold varChar
  rw [← String.toList_eq_nil_iff, String.toList_ofList, List.take_eq_nil_iff,
    String.toList_eq_nil_iff]
  exact or_iff_right hn.ne'

/-- The `users` table: one row for an identifier, and one for an address. -/
structure UserDb where
  users : Table UserRow.id
  emails : (users.rows.map UserRow.email).Nodup

namespace UserDb

variable (db : UserDb)

/-- The row of an identifier. -/
def findById? (id : DbUuid) : Option UserRow := db.users.get? id

/-- The row of an address. -/
def findByEmail? (email : String) : Option UserRow :=
  db.users.rows.find? fun row => row.email = email

/-- The unique index admits the row. -/
def EmailFree (row : UserRow) : Prop := ∀ r ∈ db.users.rows, r.email = row.email → r.id = row.id

instance (row : UserRow) : Decidable (db.EmailFree row) := by
  unfold EmailFree
  infer_instance

/-- The table with the row written. -/
def put (row : UserRow) (h : db.EmailFree row) : UserDb where
  users := db.users.put row
  emails := by
    refine List.Nodup.map_on ?_ (List.Nodup.of_map _ (db.users.put row).nodup)
    have hold : ∀ r ∈ db.users.rows, ∀ r' ∈ db.users.rows, r.email = r'.email → r = r' :=
      fun r hr r' hr' => List.inj_on_of_nodup_map db.emails hr hr'
    intro r hr r' hr' heq
    rcases Table.mem_put_iff.1 hr with rfl | ⟨hmem, hne⟩
    · rcases Table.mem_put_iff.1 hr' with rfl | ⟨hmem', hne'⟩
      · rfl
      · exact absurd (h r' hmem' heq.symm) hne'
    · rcases Table.mem_put_iff.1 hr' with rfl | ⟨hmem', hne'⟩
      · exact absurd (h r hmem heq) hne
      · exact hold r hmem r' hmem' heq

variable {db}

theorem findById?_put {row : UserRow} {h : db.EmailFree row} (id : DbUuid) :
    (db.put row h).findById? id = if row.id = id then some row else db.findById? id :=
  Table.get?_put db.users row id

theorem id_of_findById? {id : DbUuid} {row : UserRow} (h : db.findById? id = some row) :
    row.id = id := Table.key_of_get? h

end UserDb

/-! ## Operations -/

/-- What the code relies on outside of it: the runtime's `toLowerCase` and
`bcryptjs`. -/
structure Host where
  toLowerCase : String → String
  bcryptHash : String → String → String
  bcryptCompare : String → String → Bool

/-- The runtime lower-cases what it has lower-cased into itself, and the white
space around it is gone. -/
def LowerCases (host : Host) : Prop :=
  ∀ s, host.toLowerCase (trim (host.toLowerCase (trim s))) = host.toLowerCase (trim s)

/-- The columns that both statements of `save` write. -/
structure UserColumns where
  email : String
  firstName : String
  lastName : String
  status : UserStatus
  emailVerified : Bool
  lastLoginAt : Option Date
  version : ℤ
  deriving DecidableEq

/-- The operations that the repository and the domain service await. -/
inductive UserOp where
  /-- `user.findUnique({ where: { id } })`. -/
  | findUniqueById (id : UniqueId)
  /-- `user.findUnique({ where: { email } })`. -/
  | findUniqueByEmail (email : String)
  /-- `user.count({ where: { email } })`. -/
  | countByEmail (email : String)
  /-- `user.update({ where: { id, version }, data })`. -/
  | update (id : UniqueId) (version : ℤ) (data : UserColumns) (passwordHash : Option String)
      (updatedAt : Date)
  /-- `user.create({ data })`. -/
  | create (id : UniqueId) (data : UserColumns) (passwordHash : String)
  /-- `bcrypt.hash(plain, rounds)`. -/
  | bcryptHash (plain : String)
  /-- `bcrypt.compare(plain, hashed)`. -/
  | bcryptCompare (plain hashed : String)
  /-- `eventPublisher.publish(events)`. -/
  | publish (events : List DomainEvent)

/-- What an operation answers when it does not fail. -/
def UserOp.Ans : UserOp → Type
  | findUniqueById _ => Option UserRow
  | findUniqueByEmail _ => Option UserRow
  | countByEmail _ => Nat
  | update .. => UserRow
  | create .. => UserRow
  | bcryptHash _ => String
  | bcryptCompare .. => Bool
  | publish _ => Unit

/-- An asynchronous function of the user domain. -/
abbrev UserTask (α : Type) : Type := Task UserOp UserOp.Ans Thrown α

/-- What the operations work on: the table, the clock of the database, the
batches published so far, and, for the number of the operation, the salt drawn
there and whether it fails. -/
structure UserWorld where
  db : UserDb
  clock : Date
  published : List (List DomainEvent)
  salts : ℕ → String
  faults : ℕ → Bool
  performed : ℕ

/-- The world after one more operation. -/
def UserWorld.next (w : UserWorld) : UserWorld := { w with performed := w.performed + 1 }

@[simp] theorem UserWorld.next_db (w : UserWorld) : w.next.db = w.db := rfl

@[simp] theorem UserWorld.next_clock (w : UserWorld) : w.next.clock = w.clock := rfl

@[simp] theorem UserWorld.next_published (w : UserWorld) : w.next.published = w.published := rfl

@[simp] theorem UserWorld.next_salts (w : UserWorld) : w.next.salts = w.salts := rfl

@[simp] theorem UserWorld.next_performed (w : UserWorld) :
    w.next.performed = w.performed + 1 := rfl

/-- The next operation fails on its own account. -/
def UserWorld.down (w : UserWorld) : Bool := w.faults w.performed

/-- The row an update writes. -/
def UserRow.updated (row : UserRow) (data : UserColumns) (passwordHash : Option String)
    (updatedAt : Date) : UserRow :=
  { row with
    email := data.email, passwordHash := passwordHash.getD row.passwordHash,
    firstName := data.firstName, lastName := data.lastName, status := data.status,
    emailVerified := data.emailVerified, lastLoginAt := data.lastLoginAt, version := data.version,
    updatedAt := updatedAt }

/-- The row an insertion writes. -/
def UserColumns.newRow (data : UserColumns) (id : DbUuid) (passwordHash : String) (now : Date) :
    UserRow :=
  { id := id, email := data.email, passwordHash := passwordHash, firstName := data.firstName,
    lastName := data.lastName, status := data.status, emailVerified := data.emailVerified,
    lastLoginAt := data.lastLoginAt, version := data.version, createdAt := now, updatedAt := now }

/-- The error of a value that a column does not hold. -/
def outOfRange : Thrown := .error "The provided value for the column is too long or out of range."

/-- The error of an operation that fails on its own account. -/
def outage : Thrown := .error "Can't reach the server."

namespace UserDb

/-- `user.update({ where: { id, version }, data })`: only a row of this version. -/
def update (db : UserDb) (id : DbUuid) (version : ℤ) (data : UserColumns)
    (passwordHash : Option String) (updatedAt : Date) : Except Thrown UserRow × UserDb :=
  if fitsInt version = false then (.error outOfRange, db)
  else match db.findById? id with
    | none => (.error (.knownRequest "P2025" []), db)
    | some row =>
      if row.version ≠ version then (.error (.knownRequest "P2025" []), db)
      else
        let row' := row.updated data passwordHash updatedAt
        if row'.fits = false then (.error outOfRange, db)
        else if h : db.EmailFree row'.kept then (.ok row'.kept, db.put row'.kept h)
        else (.error (.knownRequest "P2002" ["email"]), db)

/-- `user.create({ data })`. -/
def create (db : UserDb) (id : DbUuid) (data : UserColumns) (passwordHash : String) (now : Date) :
    Except Thrown UserRow × UserDb :=
  let row := data.newRow id passwordHash now
  if row.fits = false then (.error outOfRange, db)
  else if db.findById? id ≠ none then (.error (.knownRequest "P2002" ["id"]), db)
  else if h : db.EmailFree row.kept then (.ok row.kept, db.put row.kept h)
  else (.error (.knownRequest "P2002" ["email"]), db)

end UserDb

/-- What an operation does when it does not fail on its own account. -/
def UserOp.answer (host : Host) (w : UserWorld) : (o : UserOp) → Except Thrown o.Ans × UserWorld
  | .findUniqueById id => (.ok (w.db.findById? id.dbUuid), w)
  | .findUniqueByEmail email => (.ok (w.db.findByEmail? email), w)
  | .countByEmail email => (.ok ((w.db.findByEmail? email).toList.length), w)
  | .update id version data passwordHash updatedAt =>
    let (r, db) := w.db.update id.dbUuid version data passwordHash updatedAt
    (r, { w with db := db })
  | .create id data passwordHash =>
    let (r, db) := w.db.create id.dbUuid data passwordHash w.clock
    (r, { w with db := db })
  | .bcryptHash plain => (.ok (host.bcryptHash plain (w.salts w.performed)), w)
  | .bcryptCompare plain hashed => (.ok (host.bcryptCompare plain hashed), w)
  | .publish events => (.ok (), { w with published := w.published ++ [events] })

/-- The publisher must not throw. -/
def UserOp.mayFail : UserOp → Bool
  | .publish _ => false
  | _ => true

/-- One operation. -/
def UserOp.exec (host : Host) (o : UserOp) (w : UserWorld) : Except Thrown o.Ans × UserWorld :=
  if o.mayFail && w.down then (.error outage, w.next)
  else ((o.answer host w).1, (o.answer host w).2.next)

/-! ## Awaiting them -/

namespace UserTask

/-- `this.prisma.client.user.findUnique({ where: { id } })`. -/
def findUniqueById (id : UniqueId) : UserTask (Option UserRow) :=
  Task.await (UserOp.findUniqueById id)

/-- `this.prisma.client.user.findUnique({ where: { email } })`. -/
def findUniqueByEmail (email : String) : UserTask (Option UserRow) :=
  Task.await (UserOp.findUniqueByEmail email)

/-- `this.prisma.client.user.count({ where: { email } })`. -/
def countByEmail (email : String) : UserTask Nat := Task.await (UserOp.countByEmail email)

/-- `this.prisma.client.user.update({ where: { id, version }, data })`. -/
def update (id : UniqueId) (version : ℤ) (data : UserColumns) (passwordHash : Option String)
    (updatedAt : Date) : UserTask UserRow :=
  Task.await (UserOp.update id version data passwordHash updatedAt)

/-- `this.prisma.client.user.create({ data })`. -/
def create (id : UniqueId) (data : UserColumns) (passwordHash : String) : UserTask UserRow :=
  Task.await (UserOp.create id data passwordHash)

/-- `bcrypt.hash(plain, rounds)`. -/
def bcryptHash (plain : String) : UserTask String := Task.await (UserOp.bcryptHash plain)

/-- `bcrypt.compare(plain, hashed)`. -/
def bcryptCompare (plain hashed : String) : UserTask Bool :=
  Task.await (UserOp.bcryptCompare plain hashed)

/-- `eventPublisher.publish(events)`. -/
def publish (events : List DomainEvent) : UserTask Unit := Task.await (UserOp.publish events)

section

variable (host : Host) (w : UserWorld)

theorem run_findUniqueById (id : UniqueId) :
    Task.run (UserOp.exec host) (findUniqueById id) w =
      if w.down then (.error outage, w.next) else (.ok (w.db.findById? id.dbUuid), w.next) := by
  show UserOp.exec host (.findUniqueById id) w = _
  unfold UserOp.exec
  cases w.down <;> rfl

theorem run_findUniqueByEmail (email : String) :
    Task.run (UserOp.exec host) (findUniqueByEmail email) w =
      if w.down then (.error outage, w.next) else (.ok (w.db.findByEmail? email), w.next) := by
  show UserOp.exec host (.findUniqueByEmail email) w = _
  unfold UserOp.exec
  cases w.down <;> rfl

theorem run_countByEmail (email : String) :
    Task.run (UserOp.exec host) (countByEmail email) w =
      if w.down then (.error outage, w.next)
      else (.ok (w.db.findByEmail? email).toList.length, w.next) := by
  show UserOp.exec host (.countByEmail email) w = _
  unfold UserOp.exec
  cases w.down <;> rfl

theorem run_update (id : UniqueId) (version : ℤ) (data : UserColumns)
    (passwordHash : Option String) (updatedAt : Date) :
    Task.run (UserOp.exec host) (update id version data passwordHash updatedAt) w =
      if w.down then (.error outage, w.next)
      else
        let (r, db) := w.db.update id.dbUuid version data passwordHash updatedAt
        (r, { w.next with db := db }) := by
  show UserOp.exec host (.update id version data passwordHash updatedAt) w = _
  unfold UserOp.exec
  cases w.down <;> rfl

theorem run_create (id : UniqueId) (data : UserColumns) (passwordHash : String) :
    Task.run (UserOp.exec host) (create id data passwordHash) w =
      if w.down then (.error outage, w.next)
      else
        let (r, db) := w.db.create id.dbUuid data passwordHash w.clock
        (r, { w.next with db := db }) := by
  show UserOp.exec host (.create id data passwordHash) w = _
  unfold UserOp.exec
  cases w.down <;> rfl

theorem run_bcryptHash (plain : String) :
    Task.run (UserOp.exec host) (bcryptHash plain) w =
      if w.down then (.error outage, w.next)
      else (.ok (host.bcryptHash plain (w.salts w.performed)), w.next) := by
  show UserOp.exec host (.bcryptHash plain) w = _
  unfold UserOp.exec
  cases w.down <;> rfl

theorem run_bcryptCompare (plain hashed : String) :
    Task.run (UserOp.exec host) (bcryptCompare plain hashed) w =
      if w.down then (.error outage, w.next)
      else (.ok (host.bcryptCompare plain hashed), w.next) := by
  show UserOp.exec host (.bcryptCompare plain hashed) w = _
  unfold UserOp.exec
  cases w.down <;> rfl

theorem run_publish (events : List DomainEvent) :
    Task.run (UserOp.exec host) (publish events) w =
      (.ok (), { w.next with published := w.published ++ [events] }) := rfl

end

end UserTask

/-! ## The repository -/

namespace UserRepositoryImpl

variable (host : Host)

/-- `PrismaService.transformError(error)`: the service has no such method. -/
def transformError : Thrown := .typeError "PrismaService.transformError is not a function"

/-- `toDomain`: no events are raised. -/
def toDomain (row : UserRow) : Except Thrown User := do
  let id ← UniqueId.fromString row.id.text
  let email := Email.fromPersistence host.toLowerCase row.email
  let password ← Password.fromHash row.passwordHash
  return User.reconstitute id email password row.firstName row.lastName row.status
    row.emailVerified row.lastLoginAt row.version row.createdAt row.updatedAt

/-- What the two lookups make of an error. -/
def lookupFailed : Thrown → Thrown
  | .userNotFound identifier identifierType => .userNotFound identifier identifierType
  | _ => transformError

/-- `findById`. -/
def findById (id : UniqueId) : UserTask User :=
  tryCatch (do
    let row ← UserTask.findUniqueById id
    match row with
    | none => throw (.userNotFound id.value "id")
    | some row => Task.ofExcept (toDomain host row)) fun error => throw (lookupFailed error)

/-- `findByEmail`. -/
def findByEmail (email : Email) : UserTask User :=
  tryCatch (do
    let row ← UserTask.findUniqueByEmail email.value
    match row with
    | none => throw (.userNotFound email.value "email")
    | some row => Task.ofExcept (toDomain host row)) fun error => throw (lookupFailed error)

/-- `existsByEmail`. -/
def existsByEmail (email : Email) : UserTask Bool :=
  tryCatch (do
    let count ← UserTask.countByEmail email.value
    return count > 0) fun _ => throw transformError

/-- The columns `save` writes from the entity. -/
def columns (user : User) : UserColumns :=
  { email := user.email.value, firstName := user.firstName, lastName := user.lastName,
    status := user.status, emailVerified := user.emailVerified, lastLoginAt := user.lastLoginAt,
    version := user.version }

/-- What `save` makes of an error. -/
def saveFailed (user : User) : Thrown → Thrown
  | .knownRequest code target =>
    if code = "P2002" ∧ "email" ∈ target then .emailAlreadyExists user.email.value
    else if code = "P2025" then .concurrencyConflict "User" user.id.value
    else transformError
  | _ => transformError

/-- `save`: an update of the version before, or an insertion. -/
def save (user : User) (now : Date) : UserTask User :=
  tryCatch (do
    let existingRow ← UserTask.findUniqueById user.id
    match existingRow with
    | some _ =>
      let expectedVersion := user.getExpectedVersion
      let updatedRow ← UserTask.update user.id expectedVersion (columns user)
        user.password.hashedValue now
      Task.ofExcept (toDomain host updatedRow)
    | none =>
      let createdRow ← UserTask.create user.id (columns user)
        (user.password.hashedValue.getD "")
      Task.ofExcept (toDomain host createdRow)) fun error => throw (saveFailed user error)

/-! ## The mapping -/

/-- The entity of a row. -/
def entity (row : UserRow) (h : isUuidV4 row.id.text = true) : User :=
  User.reconstitute ⟨row.id.text, h⟩ (.fromPersistence host.toLowerCase row.email)
    ⟨"", some row.passwordHash⟩ row.firstName row.lastName row.status row.emailVerified
    row.lastLoginAt row.version row.createdAt row.updatedAt

/-- **The mapping succeeds** for a row with an identifier of version 4 and a hash. -/
theorem toDomain_eq_ok {host : Host} {row : UserRow} {u : User} :
    toDomain host row = .ok u ↔
      ∃ h : isUuidV4 row.id.text = true, row.passwordHash ≠ "" ∧ u = entity host row h := by
  unfold toDomain
  rw [UniqueId.fromString_text]
  by_cases h : isUuidV4 row.id.text = true
  · rw [dif_pos h]
    unfold Password.fromHash
    by_cases hhash : row.passwordHash = ""
    · rw [if_pos hhash]
      constructor
      · exact nofun
      · exact fun ⟨_, hne, _⟩ => absurd hhash hne
    · rw [if_neg hhash]
      constructor
      · intro hu
        exact ⟨h, hhash, (Except.ok.inj hu).symm⟩
      · rintro ⟨_, -, rfl⟩
        rfl
  · rw [dif_neg h]
    constructor
    · exact nofun
    · exact fun ⟨hv4, _⟩ => absurd hv4 h

/-! ## Alone -/

section

variable {host}

/-- The statement `save` comes to, and what it does. -/
def saved (db : UserDb) (clock : Date) (user : User) (now : Date) :
    Except Thrown UserRow × UserDb :=
  match db.findById? user.id.dbUuid with
  | some _ => db.update user.id.dbUuid user.getExpectedVersion (columns user)
      user.password.hashedValue now
  | none => db.create user.id.dbUuid (columns user) (user.password.hashedValue.getD "") clock

/-- What fails in the mapping is an `Error`. -/
theorem toDomain_error {row : UserRow} {e : Thrown} (h : toDomain host row = .error e) :
    ∃ message, e = .error message := by
  unfold toDomain at h
  cases hid : UniqueId.fromString row.id.text with
  | error e' =>
    rw [hid] at h
    obtain rfl : e' = e := Except.error.inj h
    unfold UniqueId.fromString at hid
    split_ifs at hid <;> exact ⟨_, (Except.error.inj hid).symm⟩
  | ok id =>
    rw [hid] at h
    cases hhash : Password.fromHash row.passwordHash with
    | error e' =>
      rw [hhash] at h
      obtain rfl : e' = e := Except.error.inj h
      unfold Password.fromHash at hhash
      split_ifs at hhash
      exact ⟨_, (Except.error.inj hhash).symm⟩
    | ok password =>
      rw [hhash] at h
      cases h

theorem run_findByEmail (email : Email) (w : UserWorld) :
    Task.run (UserOp.exec host) (findByEmail host email) w =
      if w.down then (.error transformError, w.next)
      else match w.db.findByEmail? email.value with
        | none => (.error (.userNotFound email.value "email"), w.next)
        | some row => ((toDomain host row).mapError fun _ => transformError, w.next) := by
  simp only [findByEmail, Task.run_tryCatch, Task.run_bind, UserTask.run_findUniqueByEmail]
  cases w.down with
  | true => rfl
  | false =>
    cases w.db.findByEmail? email.value with
    | none => rfl
    | some row =>
      simp only [Bool.false_eq_true, if_false, Task.run_ofExcept]
      cases h : toDomain host row with
      | ok user => rfl
      | error e =>
        obtain ⟨message, rfl⟩ := toDomain_error h
        rfl

theorem run_findById (id : UniqueId) (w : UserWorld) :
    Task.run (UserOp.exec host) (findById host id) w =
      if w.down then (.error transformError, w.next)
      else match w.db.findById? id.dbUuid with
        | none => (.error (.userNotFound id.value "id"), w.next)
        | some row => ((toDomain host row).mapError fun _ => transformError, w.next) := by
  simp only [findById, Task.run_tryCatch, Task.run_bind, UserTask.run_findUniqueById]
  cases w.down with
  | true => rfl
  | false =>
    cases w.db.findById? id.dbUuid with
    | none => rfl
    | some row =>
      simp only [Bool.false_eq_true, if_false, Task.run_ofExcept]
      cases h : toDomain host row with
      | ok user => rfl
      | error e =>
        obtain ⟨message, rfl⟩ := toDomain_error h
        rfl

theorem run_findById_eq_ok {id : UniqueId} {u : User} {w w' : UserWorld} :
    Task.run (UserOp.exec host) (findById host id) w = (.ok u, w') ↔
      w.down = false ∧ w' = w.next ∧
        ∃ row, w.db.findById? id.dbUuid = some row ∧ toDomain host row = .ok u := by
  rw [run_findById]
  cases w.down with
  | true => simp
  | false =>
    cases hrow : w.db.findById? id.dbUuid with
    | none => simp
    | some row =>
      cases hmap : toDomain host row with
      | error e => simp [hmap, Except.mapError]
      | ok u' =>
        simp only [Bool.false_eq_true, if_false, Except.mapError, hmap, Prod.mk.injEq,
          Except.ok.injEq, true_and, Option.some.injEq, exists_eq_left']
        constructor
        · rintro ⟨rfl, rfl⟩
          exact ⟨rfl, rfl⟩
        · rintro ⟨rfl, rfl⟩
          exact ⟨rfl, rfl⟩

theorem run_existsByEmail (email : Email) (w : UserWorld) :
    Task.run (UserOp.exec host) (existsByEmail email) w =
      if w.down then (.error transformError, w.next)
      else (.ok (w.db.findByEmail? email.value).isSome, w.next) := by
  simp only [existsByEmail, Task.run_tryCatch, Task.run_bind, UserTask.run_countByEmail]
  cases w.down with
  | true => rfl
  | false => cases w.db.findByEmail? email.value <;> rfl

/-- The row `save` asks for. -/
def givenRow (db : UserDb) (clock : Date) (user : User) (now : Date) : UserRow :=
  match db.findById? user.id.dbUuid with
  | some row => row.updated (columns user) user.password.hashedValue now
  | none => (columns user).newRow user.id.dbUuid (user.password.hashedValue.getD "") clock

/-- The row `save` writes, when it writes one. -/
def savedRow (db : UserDb) (clock : Date) (user : User) (now : Date) : UserRow :=
  (givenRow db clock user now).kept

/-- The table takes what `save` writes: the row it replaces has the expected
version, and the new one fits the columns and the unique address. -/
structure Accepts (db : UserDb) (clock : Date) (user : User) (now : Date) : Prop where
  version : ∀ row, db.findById? user.id.dbUuid = some row →
    row.version = user.getExpectedVersion ∧ fitsInt user.getExpectedVersion = true
  fits : (givenRow db clock user now).fits = true
  email : db.EmailFree (savedRow db clock user now)

theorem saved_eq_ok {db : UserDb} {clock : Date} {user : User} {now : Date} {row : UserRow} :
    (saved db clock user now).1 = .ok row ↔
      Accepts db clock user now ∧ row = savedRow db clock user now := by
  have hiff : Accepts db clock user now ↔
      (∀ row, db.findById? user.id.dbUuid = some row →
        row.version = user.getExpectedVersion ∧ fitsInt user.getExpectedVersion = true) ∧
      (givenRow db clock user now).fits = true ∧ db.EmailFree (savedRow db clock user now) :=
    ⟨fun h => ⟨h.version, h.fits, h.email⟩, fun h => ⟨h.1, h.2.1, h.2.2⟩⟩
  rw [hiff]
  unfold saved savedRow givenRow
  cases hrow : db.findById? user.id.dbUuid with
  | none =>
    simp only [UserDb.create, hrow]
    split_ifs with hfits hthere hfree
    · simp [hfits]
    · exact absurd rfl hthere
    · refine ⟨fun h => ⟨⟨nofun, by simpa using hfits, hfree⟩, (Except.ok.inj h).symm⟩, ?_⟩
      rintro ⟨-, rfl⟩
      rfl
    · simp [hfree]
  | some old =>
    simp only [UserDb.update, hrow]
    split_ifs with hint hversion hfits hfree
    · simp [hint]
    · simp [hversion]
    · simp [hfits]
    · refine ⟨fun h => ⟨⟨?_, by simpa using hfits, hfree⟩, (Except.ok.inj h).symm⟩, ?_⟩
      · rintro _ ⟨⟩
        exact ⟨not_not.1 hversion, by simpa using hint⟩
      · rintro ⟨-, rfl⟩
        rfl
    · simp [hfree]

/-- A statement that goes through writes its row, and nothing else. -/
theorem saved_put {db : UserDb} {clock : Date} {user : User} {now : Date} {row : UserRow}
    (h : (saved db clock user now).1 = .ok row) :
    ∃ hfree, (saved db clock user now).2 = db.put row hfree := by
  unfold saved at h ⊢
  cases hrow : db.findById? user.id.dbUuid with
  | none =>
    simp only [UserDb.create, hrow] at h ⊢
    split_ifs at h ⊢ with hfits hthere hfree
    cases h
    exact ⟨hfree, rfl⟩
  | some old =>
    simp only [UserDb.update, hrow] at h ⊢
    split_ifs at h ⊢ with hint hversion hfits hfree
    cases h
    exact ⟨hfree, rfl⟩

/-- A statement that is refused leaves the table alone. -/
theorem saved_of_error {db : UserDb} {clock : Date} {user : User} {now : Date} {e : Thrown}
    (h : (saved db clock user now).1 = .error e) : (saved db clock user now).2 = db := by
  unfold saved at h ⊢
  cases hrow : db.findById? user.id.dbUuid with
  | none =>
    simp only [UserDb.create, hrow] at h ⊢
    split_ifs at h ⊢ <;> rfl
  | some old =>
    simp only [UserDb.update, hrow] at h ⊢
    split_ifs at h ⊢ <;> rfl

theorem run_save (user : User) (now : Date) (w : UserWorld) :
    Task.run (UserOp.exec host) (save host user now) w =
      if w.down then (.error transformError, w.next)
      else if w.next.down then (.error transformError, w.next.next)
      else
        let after := { w.next.next with db := (saved w.db w.clock user now).2 }
        match (saved w.db w.clock user now).1 with
        | .ok row => ((toDomain host row).mapError (saveFailed user), after)
        | .error e => (.error (saveFailed user e), after) := by
  simp only [save, Task.run_tryCatch, Task.run_bind, UserTask.run_findUniqueById]
  cases w.down with
  | true => rfl
  | false =>
    cases hrow : w.db.findById? user.id.dbUuid with
    | none =>
      simp only [Bool.false_eq_true, if_false, Task.run_bind, Task.run_ofExcept,
        UserTask.run_create, saved, hrow]
      cases w.next.down with
      | true => rfl
      | false =>
        simp only [Bool.false_eq_true, if_false, UserWorld.next_db, UserWorld.next_clock]
        generalize w.db.create user.id.dbUuid (columns user) (user.password.hashedValue.getD "")
          w.clock = stmt
        obtain ⟨r, db⟩ := stmt
        cases r with
        | error e => rfl
        | ok row =>
          dsimp only
          cases toDomain host row <;> rfl
    | some row =>
      simp only [Bool.false_eq_true, if_false, Task.run_bind, Task.run_ofExcept,
        UserTask.run_update, saved, hrow]
      cases w.next.down with
      | true => rfl
      | false =>
        simp only [Bool.false_eq_true, if_false, UserWorld.next_db]
        generalize w.db.update user.id.dbUuid user.getExpectedVersion (columns user)
          user.password.hashedValue now = stmt
        obtain ⟨r, db⟩ := stmt
        cases r with
        | error e => rfl
        | ok row =>
          dsimp only
          cases toDomain host row <;> rfl

theorem savedRow_id (db : UserDb) (clock : Date) (user : User) (now : Date) :
    (savedRow db clock user now).id = user.id.dbUuid := by
  unfold savedRow givenRow
  cases hrow : db.findById? user.id.dbUuid with
  | none => rfl
  | some row =>
    have hid : row.id = user.id.dbUuid := UserDb.id_of_findById? hrow
    exact hid

/-- The table after a statement that went through. -/
theorem findById?_saved {db : UserDb} {clock : Date} {user : User} {now : Date} {row : UserRow}
    (h : (saved db clock user now).1 = .ok row) (id : DbUuid) :
    (saved db clock user now).2.findById? id =
      if user.id.dbUuid = id then some row else db.findById? id := by
  obtain ⟨hfree, hput⟩ := saved_put h
  rw [hput, UserDb.findById?_put, (saved_eq_ok.1 h).2, savedRow_id]

/-- **`save` succeeds** when both of its operations come through, the table
takes the row and the row has a hash. -/
theorem run_save_eq_ok {user u : User} {now : Date} {w w' : UserWorld} :
    Task.run (UserOp.exec host) (save host user now) w = (.ok u, w') ↔
      w.down = false ∧ w.next.down = false ∧ Accepts w.db w.clock user now ∧
        toDomain host (savedRow w.db w.clock user now) = .ok u ∧
        w' = { w.next.next with db := (saved w.db w.clock user now).2 } := by
  rw [run_save]
  cases w.down with
  | true => simp
  | false =>
    cases w.next.down with
    | true => simp
    | false =>
      simp only [Bool.false_eq_true, if_false, true_and]
      cases hsaved : (saved w.db w.clock user now).1 with
      | error e =>
        have hnot : ¬ Accepts w.db w.clock user now := fun h =>
          nomatch hsaved.symm.trans (saved_eq_ok.2 ⟨h, rfl⟩)
        simp [hnot]
      | ok row =>
        obtain ⟨haccepts, rfl⟩ := saved_eq_ok.1 hsaved
        cases hmap : toDomain host (savedRow w.db w.clock user now) with
        | error e => simp [hmap, Except.mapError]
        | ok user' =>
          simp only [hmap, Except.mapError, Prod.mk.injEq, Except.ok.injEq, haccepts, true_and]
          exact and_congr_right fun _ => eq_comm

theorem run_save_published (user : User) (now : Date) (w : UserWorld) :
    (Task.run (UserOp.exec host) (save host user now) w).2.published = w.published := by
  rw [run_save]
  split_ifs
  · rfl
  · rfl
  · cases (saved w.db w.clock user now).1 <;> rfl

end

end UserRepositoryImpl

end EnterpriseSystem.Identity
