import EnterpriseSystem.Base.Table
import EnterpriseSystem.Base.Numeric
import EnterpriseSystem.Base.ReadCommitted

/-!
# The database schema

The tables of the migrations under `supabase/migrations`, with every column the
functions of this development read or write, and the database as a whole.

* The enumerations of migration 002, with the labels they print.
* `Account`, `LedgerEntry`, `Transaction` (migration 005), `Organization`,
  `OrganizationMember` (004), `AuditEntry`, `SecurityEvent`, `RateLimit` (003).
* `Db` — all tables; `Write` — one row written to one of them; `Db.apply`.
* `PgError` — how a statement fails; `LockKey` — what a statement locks.
* `Context` — what a call sees besides its arguments and the tables: the session
  it runs in, `now()`, the identifiers it generates.
* `Rpc` — a database function, as a program of statements.
-/

namespace EnterpriseSystem

open Relational Concurrency

/-! ## Values -/

/-- A value of type `UUID`. -/
abbrev Uuid : Type := BitVec 128

namespace Uuid

/-- The hexadecimal digits, most significant first. -/
def hexDigits (u : Uuid) : List Char :=
  (List.range 32).map fun i => Nat.digitChar (u.toNat / 16 ^ (31 - i) % 16)

/-- `u::text`. -/
def text (u : Uuid) : String :=
  let d := hexDigits u
  String.ofList (d.take 8 ++ '-' :: (d.drop 8).take 4 ++ '-' :: (d.drop 12).take 4 ++
    '-' :: (d.drop 16).take 4 ++ '-' :: d.drop 20)

end Uuid

/-- What `%s` of `format` prints for a `UUID`, nothing for `NULL`. -/
def formatUuid : Option Uuid → String
  | some u => u.text
  | none => ""

/-- A `TIMESTAMPTZ`, in microseconds. -/
abbrev Timestamp : Type := ℤ

/-- `interval '1 minute'`. -/
def oneMinute : ℤ := 60000000

/-- The amounts of money: `NUMERIC(19,4)`. -/
abbrev Money : Type := Fixed 19 4

/-- A scalar as `RAISE` prints it and as a JSON object holds it. -/
inductive Value where
  | null
  | text (s : String)
  | number (n : Numeric)
  deriving DecidableEq

namespace Value

def ofText : Option String → Value
  | some s => text s
  | none => null

def ofUuid : Option Uuid → Value
  | some u => text u.text
  | none => null

/-- An amount; JSON has no number for `NaN` and the infinities. -/
def ofNumeric : Option Numeric → Value
  | some (.finite q) => number (.finite q)
  | some .nan => text "NaN"
  | some .infinity => text "Infinity"
  | some .negInfinity => text "-Infinity"
  | none => null

def ofNat (n : ℕ) : Value := number (.finite n)

end Value

/-- What `jsonb_build_object` builds here: scalars under keys. -/
abbrev JsonObject : Type := List (String × Value)

/-- A `JSONB` argument that is only stored, given by its text. -/
structure Jsonb where
  text : String
  deriving DecidableEq

/-! ## Column types

A `CHECK` on a single column makes that column a subtype, so that a stored row
satisfies its checks by construction and a statement that writes one has to
carry them out. -/

/-- `balance >= -999999999999999.9999 AND balance <= 999999999999999.9999`. -/
def InBalanceRange (b : Money) : Prop :=
  Numeric.le (.finite (-9999999999999999999 / 10000)) b.toNumeric = true ∧
    Numeric.le b.toNumeric (.finite (9999999999999999999 / 10000)) = true

instance : DecidablePred InBalanceRange := fun _ => inferInstanceAs (Decidable (_ ∧ _))

/-- The values of `accounts.balance`. -/
abbrev Balance : Type := { b : Money // InBalanceRange b }

/-- `amount > 0`. -/
def IsPositive (m : Money) : Prop := Numeric.lt (.finite 0) m.toNumeric = true

instance : DecidablePred IsPositive := fun _ => inferInstanceAs (Decidable (_ = _))

/-- The values of an `amount` column. -/
abbrev Amount : Type := { m : Money // IsPositive m }

/-- The words `metadata::text !~* '(script|eval|function|exec|execute)'` looks for. -/
def unsafeWords : List String := ["script", "eval", "function", "exec", "execute"]

/-- `metadata::text !~* '(script|eval|function|exec|execute)'`. -/
def IsSafeMetadata (m : Jsonb) : Prop :=
  ∀ w ∈ unsafeWords, ¬ w.toList <:+: m.text.toList.map Char.toLower

instance : DecidablePred IsSafeMetadata := fun _ => inferInstanceAs (Decidable (∀ _ ∈ _, _))

/-- The values of a `metadata` column of the financial tables. -/
abbrev Metadata : Type := { m : Jsonb // IsSafeMetadata m }

/-- The default `'{}'`. -/
def emptyMetadata : Metadata := ⟨⟨"{}"⟩, by decide⟩

/-- `length(name) BETWEEN 1 AND 200`. -/
def IsAccountName (s : String) : Prop := 1 ≤ s.length ∧ s.length ≤ 200

instance : DecidablePred IsAccountName := fun _ => inferInstanceAs (Decidable (_ ∧ _))

/-- `currency ~ '^[A-Z]{3}$'`. -/
def IsCurrency (s : String) : Prop :=
  s.length = 3 ∧ (s.toList.all fun c => decide ('A' ≤ c ∧ c ≤ 'Z')) = true

instance : DecidablePred IsCurrency := fun _ => inferInstanceAs (Decidable (_ ∧ _))

/-! ## Enumerations -/

inductive OrgPlan where
  | free | starter | professional | enterprise
  deriving DecidableEq

inductive UserRole where
  | owner | admin | member | viewer | billing
  deriving DecidableEq

inductive AccountType where
  | checking | savings | credit | escrow | fee
  deriving DecidableEq

inductive AccountStatus where
  | active | frozen | closed | pendingVerification
  deriving DecidableEq

inductive TransactionType where
  | debit | credit | transfer | fee | refund | adjustment
  deriving DecidableEq

inductive TransactionStatus where
  | pending | processing | completed | failed | reversed | cancelled
  deriving DecidableEq

inductive AuditAction where
  | create | read | update | delete | login | logout | accessDenied | «export» | «import»
  | approve | reject
  deriving DecidableEq

inductive SecurityEventType where
  | rlsViolation | privilegeEscalationAttempt | suspiciousQuery | rateLimitExceeded
  | invalidToken | sessionHijackAttempt | dataExport | bulkOperation | schemaChange | roleChange
  deriving DecidableEq

/-- The values the `CHECK` on `entry_type` admits. -/
inductive EntryType where
  | debit | credit
  deriving DecidableEq

/-- The values the `CHECK` on `severity` admits. -/
inductive Severity where
  | low | medium | high | critical
  deriving DecidableEq

def UserRole.label : UserRole → String
  | owner => "owner"
  | admin => "admin"
  | member => "member"
  | viewer => "viewer"
  | billing => "billing"

def AccountType.label : AccountType → String
  | checking => "checking"
  | savings => "savings"
  | credit => "credit"
  | escrow => "escrow"
  | fee => "fee"

def TransactionType.label : TransactionType → String
  | debit => "debit"
  | credit => "credit"
  | transfer => "transfer"
  | fee => "fee"
  | refund => "refund"
  | adjustment => "adjustment"

def AuditAction.label : AuditAction → String
  | create => "create"
  | read => "read"
  | update => "update"
  | delete => "delete"
  | login => "login"
  | logout => "logout"
  | accessDenied => "access_denied"
  | «export» => "export"
  | «import» => "import"
  | approve => "approve"
  | reject => "reject"

/-! ## Rows -/

structure Organization where
  id : Uuid
  plan : OrgPlan

structure OrganizationMember where
  id : Uuid
  orgId : Uuid
  userId : Uuid
  role : UserRole
  invitedBy : Option Uuid
  invitedAt : Option Timestamp
  joinedAt : Timestamp
  isActive : Bool
  deactivatedAt : Option Timestamp
  createdAt : Timestamp
  updatedAt : Timestamp

structure Account where
  id : Uuid
  orgId : Uuid
  name : { s : String // IsAccountName s }
  type : AccountType
  status : AccountStatus
  currency : { s : String // IsCurrency s }
  balance : Balance
  metadata : Metadata
  createdAt : Timestamp
  updatedAt : Timestamp
  createdBy : Option Uuid

structure LedgerEntry where
  id : Uuid
  orgId : Uuid
  transactionId : Uuid
  accountId : Uuid
  entryType : EntryType
  amount : Amount
  currency : String
  balanceAfter : Money
  description : Option String
  metadata : Metadata
  createdAt : Timestamp
  createdBy : Option Uuid

/-- `txn_different_accounts`. -/
def DifferentAccounts (source dest : Option Uuid) : Prop :=
  source = none ∨ dest = none ∨ source ≠ dest

instance (source dest : Option Uuid) : Decidable (DifferentAccounts source dest) :=
  inferInstanceAs (Decidable (_ ∨ _ ∨ _))

structure Transaction where
  id : Uuid
  orgId : Uuid
  type : TransactionType
  status : TransactionStatus
  amount : Amount
  currency : String
  sourceAccountId : Option Uuid
  destAccountId : Option Uuid
  idempotencyKey : Option String
  description : Option String
  metadata : Metadata
  processedAt : Option Timestamp
  failedAt : Option Timestamp
  failureReason : Option String
  reversedAt : Option Timestamp
  createdAt : Timestamp
  updatedAt : Timestamp
  createdBy : Option Uuid
  differentAccounts : DifferentAccounts sourceAccountId destAccountId

structure AuditEntry where
  id : Uuid
  actorId : Option Uuid
  actorEmail : Option String
  actorIp : Option String
  actorRole : Option String
  action : AuditAction
  tableName : String
  recordId : Option Uuid
  oldData : Option JsonObject
  newData : Option JsonObject
  changedFields : Option (List String)
  requestId : Option String
  correlationId : Option String
  rowHash : String
  prevHash : Option String
  createdAt : Timestamp

structure SecurityEvent where
  id : Uuid
  eventType : SecurityEventType
  severity : Severity
  actorId : Option Uuid
  actorIp : Option String
  actorEmail : Option String
  description : String
  metadata : JsonObject
  actionTaken : String
  createdAt : Timestamp

structure RateLimit where
  key : String
  tokens : Int4
  maxTokens : Int4
  refillRate : Int4
  refillInterval : ℤ
  lastRefill : Timestamp
  createdAt : Timestamp
  updatedAt : Timestamp

/-- The key of the constraint `org_member_unique`. -/
def OrganizationMember.key (m : OrganizationMember) : Uuid × Uuid := (m.orgId, m.userId)

/-! ## The database -/

/-- The tables. -/
structure Db where
  organizations : Table Organization.id
  organizationMembers : Table OrganizationMember.key
  accounts : Table Account.id
  transactions : Table Transaction.id
  ledgerEntries : Table LedgerEntry.id
  auditLog : Table AuditEntry.id
  securityEvents : Table SecurityEvent.id
  rateLimits : Table RateLimit.key

/-- A database without rows. -/
def Db.empty : Db where
  organizations := .empty _
  organizationMembers := .empty _
  accounts := .empty _
  transactions := .empty _
  ledgerEntries := .empty _
  auditLog := .empty _
  securityEvents := .empty _
  rateLimits := .empty _

/-- The database before its first account: the organizations, their members, the
rate limits and the logs are whatever they are. -/
def Db.beforeAccounts (db : Db) : Db :=
  { db with accounts := .empty _, transactions := .empty _, ledgerEntries := .empty _ }

/-- A row written to a table. -/
inductive Write where
  | organizationMember (m : OrganizationMember)
  | account (a : Account)
  | transaction (t : Transaction)
  | ledgerEntry (e : LedgerEntry)
  | auditEntry (e : AuditEntry)
  | securityEvent (e : SecurityEvent)
  | rateLimit (r : RateLimit)

/-- The database after a row has been written. -/
def Db.apply (db : Db) : Write → Db
  | .organizationMember m => { db with organizationMembers := db.organizationMembers.put m }
  | .account a => { db with accounts := db.accounts.put a }
  | .transaction t => { db with transactions := db.transactions.put t }
  | .ledgerEntry e => { db with ledgerEntries := db.ledgerEntries.put e }
  | .auditEntry e => { db with auditLog := db.auditLog.put e }
  | .securityEvent e => { db with securityEvents := db.securityEvents.put e }
  | .rateLimit r => { db with rateLimits := db.rateLimits.put r }

/-- The tables whose rows are locked one by one. -/
inductive TableName where
  | organizationMembers | accounts | transactions | ledgerEntries | auditLog | securityEvents
  deriving DecidableEq

/-- What a statement locks until its call ends: a row it writes or selects
`FOR UPDATE`, or the value it inserts into a unique column. -/
inductive LockKey where
  | row (t : TableName) (id : Uuid)
  | rateLimit (key : String)
  | idempotencyKey (key : String)
  deriving DecidableEq

/-- How a statement fails. -/
inductive PgError where
  /-- `RAISE EXCEPTION message, args USING ERRCODE = errcode, DETAIL = detail`. -/
  | raised (message : String) (args : List Value) (errcode : String) (detail : JsonObject)
  | notNullViolation (table column : String)
  | checkViolation (constraint : String)
  | uniqueViolation (constraint : String)
  | foreignKeyViolation (constraint : String)
  | numericValueOutOfRange
  | undefinedFunction (name : String)
  | invalidTextRepresentation (type value : String)
  deriving DecidableEq

/-- The `ERRCODE` of a `RAISE` that names none. -/
def raiseException : String := "P0001"

/-- The value of a `NOT NULL` column. -/
def notNull {α : Type} (table column : String) : Option α → Except PgError α
  | some a => .ok a
  | none => .error (.notNullViolation table column)

/-- A `CHECK` constraint. -/
def check {α : Type} (constraint : String) (P : α → Prop) [DecidablePred P] (a : α) :
    Except PgError { a // P a } :=
  if h : P a then .ok ⟨a, h⟩ else .error (.checkViolation constraint)

theorem notNull_ok {α : Type} {table column : String} {x : Option α} {a : α} :
    notNull table column x = .ok a ↔ x = some a := by
  cases x <;> simp [notNull]

theorem check_ok {α : Type} {c : String} {P : α → Prop} [DecidablePred P] {a : α}
    {b : { a // P a }} : check c P a = .ok b ↔ a = b.1 := by
  unfold check
  split
  · rename_i h
    constructor
    · rintro h'
      cases h'
      rfl
    · rintro rfl
      rfl
  · rename_i h
    exact ⟨fun h' => (nomatch h'), fun h' => absurd (h' ▸ b.2) h⟩

/-- An amount assigned to a `NUMERIC(19,4)` column. -/
def storeMoney : Option Numeric → Except PgError (Option Money)
  | none => .ok none
  | some x =>
    match Fixed.store 19 4 x with
    | some m => .ok (some m)
    | none => .error .numericValueOutOfRange

/-! ## The context of a call -/

/-- The database roles a request runs as. -/
inductive DbRole where
  | anon | authenticated | serviceRole
  deriving DecidableEq

def DbRole.name : DbRole → String
  | anon => "anon"
  | authenticated => "authenticated"
  | serviceRole => "service_role"

/-- The settings PostgREST derives from the request and its JWT. -/
structure Session where
  /-- `request.jwt.claim.sub` -/
  sub : Option Uuid
  /-- `request.jwt.claim.org_id` -/
  orgId : Option Uuid
  /-- `request.jwt.claim.email` -/
  email : Option String
  /-- `request.jwt.claim.role` -/
  claimRole : Option String
  /-- `role`, the database role of the session -/
  role : DbRole
  /-- `inet_client_addr()` -/
  clientAddr : Option String
  /-- the headers `x-request-id` and `x-correlation-id` -/
  requestId : Option String
  correlationId : Option String

/-- A choice of `ORDER BY created_at DESC`: it sorts, and leaves open how ties
are ordered. -/
structure LatestFirst where
  sort : List AuditEntry → List AuditEntry
  perm : ∀ l, (sort l).Perm l
  sorted : ∀ l, (sort l).Pairwise fun a b => b.createdAt ≤ a.createdAt

/-- What the server provides. -/
structure Server where
  /-- `encode(digest(s, 'sha256'), 'hex')` -/
  digest : String → String
  /-- `jsonb::text` and `timestamptz::text` -/
  jsonbText : JsonObject → String
  timestampText : Timestamp → String
  latestFirst : LatestFirst
  /-- Whether the unqualified `auth_uid()`, `auth_role()` and `digest()` inside
  `write_audit_log` and `log_security_event` are found. -/
  resolvesUnqualified : Bool

/-- What a call sees besides its arguments and the tables. -/
structure Context where
  server : Server
  session : Session
  /-- `now()`, the time the call started -/
  now : Timestamp
  /-- the `n`-th identifier `gen_random_uuid()` generates for the call -/
  uuid : ℕ → Uuid

/-- A function of the database: a program of statements. -/
abbrev Rpc (α : Type) : Type 1 := Call Db Write LockKey PgError α

/-- A call run with nobody else around. -/
abbrev Rpc.exec {α : Type} (p : Rpc α) (db : Db) : Except PgError (α × Db) :=
  execute Db.apply p db

/-! ## A server to run calls on

The values below are what the examples of the other modules run on: a server
whose logs are ordered by insertion among equal times, and sessions of a user in
an organization. -/

/-- Ties in the order in which insertion sort leaves them. -/
def LatestFirst.stable : LatestFirst where
  sort := List.insertionSort fun a b => b.createdAt ≤ a.createdAt
  perm := List.perm_insertionSort _
  sorted := by
    have : Std.Total fun a b : AuditEntry => b.createdAt ≤ a.createdAt :=
      ⟨fun a b => le_total b.createdAt a.createdAt⟩
    have : IsTrans AuditEntry fun a b => b.createdAt ≤ a.createdAt :=
      ⟨fun _ _ _ hab hbc => le_trans hbc hab⟩
    exact List.pairwise_insertionSort _

/-- The text of a scalar in a JSON object. -/
def Value.jsonText : Value → String
  | null => "null"
  | text s => "\"" ++ s ++ "\""
  | number (.finite q) => toString q
  | number _ => "null"

/-- A server whose hash is the text itself. -/
def Server.plain (resolvesUnqualified : Bool) : Server where
  digest := id
  jsonbText o := String.join (o.map fun kv => "\"" ++ kv.1 ++ "\": " ++ kv.2.jsonText ++ ", ")
  timestampText t := toString t
  latestFirst := .stable
  resolvesUnqualified := resolvesUnqualified

/-- A call of the user `sub` in the organization `orgId` at the time `now`, whose
generated identifiers follow `base`. -/
def Context.plain (resolvesUnqualified : Bool) (sub orgId : Uuid) (now : Timestamp) (base : ℕ) :
    Context where
  server := .plain resolvesUnqualified
  session := {
    sub := some sub
    orgId := some orgId
    email := none
    claimRole := some "authenticated"
    role := .authenticated
    clientAddr := none
    requestId := none
    correlationId := none }
  now := now
  uuid n := BitVec.ofNat 128 (base + n)

/-- An active member who has joined at the beginning. -/
def OrganizationMember.plain (id orgId userId : Uuid) (role : UserRole) : OrganizationMember where
  id := id
  orgId := orgId
  userId := userId
  role := role
  invitedBy := none
  invitedAt := none
  joinedAt := 0
  isActive := true
  deactivatedAt := none
  createdAt := 0
  updatedAt := 0

/-- A database with one organization. -/
def Db.withOrganization (o : Organization) : Db :=
  { Db.empty with organizations := (Table.empty _).put o }

end EnterpriseSystem
