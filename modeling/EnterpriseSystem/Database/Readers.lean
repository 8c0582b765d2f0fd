import EnterpriseSystem.Database.Finance

/-!
# What a caller can read

The functions of migration 007 that return rows to a caller, and the views of
migration 006.  All of them select by the organization in the caller's claim.

* `listAccounts`, `listTransactions`, `getTransaction` — the financial data.
* `ledgerView`, `accountBalances`, `transactionSummary` — the views.
* `listAuditLogs` — the audit log, for owners and admins.

A view, and the array `jsonb_agg` collects, is a bag of rows.  The functions
with an `ORDER BY created_at DESC` get the order of equal times from a
`FixedOrder`.
-/

namespace EnterpriseSystem

open Relational Concurrency

/-! ## Selecting rows -/

/-- An `ORDER BY created_at DESC` that orders equal times in a fixed way: the
order depends on the selected rows only. -/
structure FixedOrder (α : Type) (createdAt : α → Timestamp) where
  sort : Multiset α → List α
  perm : ∀ s, (sort s : Multiset α) = s
  sorted : ∀ s, (sort s).Pairwise fun a b => createdAt b ≤ createdAt a

/-- `p IS NULL OR a = p`. -/
def matchesFilter {α : Type} [DecidableEq α] (p : Option α) (a : α) : Prop :=
  p = none ∨ p = some a

instance {α : Type} [DecidableEq α] (p : Option α) (a : α) : Decidable (matchesFilter p a) :=
  inferInstanceAs (Decidable (_ ∨ _))

/-- How a function that returns rows fails. -/
inductive ReadError where
  | failed (e : PgError)
  /-- `OFFSET must not be negative` -/
  | negativeOffset
  /-- `LIMIT must not be negative` -/
  | negativeLimit
  deriving DecidableEq

/-- `LIMIT LEAST(p_limit, cap) OFFSET p_offset`, where `LEAST` ignores a `NULL`. -/
def page {α : Type} (cap : ℕ) (limit offset : Option Int4) (rows : List α) :
    Except ReadError (List α) :=
  let skip : ℤ := (offset.map (·.1)).getD 0
  let count : ℤ := (limit.map fun n => min n.1 (cap : ℤ)).getD cap
  if skip < 0 then .error .negativeOffset
  else if count < 0 then .error .negativeLimit
  else .ok ((rows.drop skip.toNat).take count.toNat)

/-! ## Accounts -/

/-- `public.list_accounts`. -/
def listAccounts (order : FixedOrder Account Account.createdAt) (ctx : Context)
    (type : Option AccountType) (status : Option AccountStatus) (db : Db) : List Account :=
  order.sort (db.accounts.bag.filter fun a => authOrgId ctx = some a.orgId ∧
    matchesFilter type a.type ∧ matchesFilter status a.status)

/-- A row of the view `account_balances`. -/
structure AccountBalance where
  id : Uuid
  orgId : Uuid
  name : String
  type : AccountType
  status : AccountStatus
  currency : String
  balance : Money
  createdAt : Timestamp
  updatedAt : Timestamp

/-- The view `public.account_balances`. -/
def accountBalances (ctx : Context) (db : Db) : Multiset AccountBalance :=
  (db.accounts.bag.filter fun a => authOrgId ctx = some a.orgId ∧ a.status = .active).map fun a =>
    { id := a.id, orgId := a.orgId, name := a.name.1, type := a.type, status := a.status,
      currency := a.currency.1, balance := a.balance.1, createdAt := a.createdAt,
      updatedAt := a.updatedAt }

/-! ## Transactions -/

/-- `LEFT JOIN public.accounts … ON …id = id`, and the name of what it finds. -/
def accountName (id : Option Uuid) (db : Db) : Option String :=
  (accountRow id db).map fun a => a.name.1

/-- A row `list_transactions` returns. -/
structure TransactionRow where
  id : Uuid
  type : TransactionType
  status : TransactionStatus
  amount : Money
  currency : String
  sourceAccountName : Option String
  destAccountName : Option String
  description : Option String
  createdAt : Timestamp
  processedAt : Option Timestamp

/-- `public.list_transactions`. -/
def listTransactions (order : FixedOrder Transaction Transaction.createdAt) (ctx : Context)
    (status : Option TransactionStatus) (type : Option TransactionType)
    (limit offset : Option Int4) (db : Db) : Except ReadError (List TransactionRow) :=
  page 100 limit offset <|
    (order.sort (db.transactions.bag.filter fun t => authOrgId ctx = some t.orgId ∧
      matchesFilter status t.status ∧ matchesFilter type t.type)).map fun t =>
        { id := t.id, type := t.type, status := t.status, amount := t.amount.1,
          currency := t.currency, sourceAccountName := accountName t.sourceAccountId db,
          destAccountName := accountName t.destAccountId db, description := t.description,
          createdAt := t.createdAt, processedAt := t.processedAt }

/-- A row of the view `transaction_summary`. -/
structure TransactionSummaryRow where
  id : Uuid
  orgId : Uuid
  type : TransactionType
  status : TransactionStatus
  amount : Money
  currency : String
  sourceAccountName : Option String
  destAccountName : Option String
  description : Option String
  createdAt : Timestamp
  processedAt : Option Timestamp
  createdBy : Option Uuid

/-- The view `public.transaction_summary`. -/
def transactionSummary (ctx : Context) (db : Db) : Multiset TransactionSummaryRow :=
  (db.transactions.bag.filter fun t => authOrgId ctx = some t.orgId).map fun t =>
    { id := t.id, orgId := t.orgId, type := t.type, status := t.status, amount := t.amount.1,
      currency := t.currency, sourceAccountName := accountName t.sourceAccountId db,
      destAccountName := accountName t.destAccountId db, description := t.description,
      createdAt := t.createdAt, processedAt := t.processedAt, createdBy := t.createdBy }

/-- What `get_transaction` says about an account. -/
structure AccountReference where
  id : Uuid
  name : String
  type : AccountType

def accountReference (id : Option Uuid) (db : Db) : Option AccountReference :=
  (accountRow id db).map fun a => ⟨a.id, a.name.1, a.type⟩

/-- What `get_transaction` says about an entry. -/
structure EntryDetail where
  entryType : EntryType
  amount : Money
  balanceAfter : Money
  description : Option String

/-- The object `get_transaction` builds.  `sourceAccount` has its three keys with
`NULL` values when there is no account; `ledgerEntries` is `NULL` when there are
none. -/
structure TransactionDetail where
  id : Uuid
  type : TransactionType
  status : TransactionStatus
  amount : Money
  currency : String
  sourceAccount : Option AccountReference
  destAccount : Option AccountReference
  description : Option String
  idempotencyKey : Option String
  metadata : Jsonb
  createdAt : Timestamp
  processedAt : Option Timestamp
  createdBy : Option Uuid
  ledgerEntries : Multiset EntryDetail

/-- `public.get_transaction`: the object, or the text under the key `error`. -/
def getTransaction (ctx : Context) (transactionId : Option Uuid) (db : Db) :
    Except String TransactionDetail :=
  let row := (transactionId.bind db.transactions.get?).filter fun t =>
    decide (authOrgId ctx = some t.orgId)
  match row with
  | none => .error "Transaction not found"
  | some t => .ok
    { id := t.id, type := t.type, status := t.status, amount := t.amount.1, currency := t.currency,
      sourceAccount := accountReference t.sourceAccountId db,
      destAccount := accountReference t.destAccountId db, description := t.description,
      idempotencyKey := t.idempotencyKey, metadata := t.metadata.1, createdAt := t.createdAt,
      processedAt := t.processedAt, createdBy := t.createdBy
      ledgerEntries := (db.ledgerEntries.bag.filter fun e => e.transactionId = t.id).map fun e =>
        ⟨e.entryType, e.amount.1, e.balanceAfter, e.description⟩ }

/-! ## The ledger -/

/-- `public.is_service_role()`. -/
def isServiceRole (ctx : Context) : Prop := ctx.session.role = .serviceRole

instance (ctx : Context) : Decidable (isServiceRole ctx) := inferInstanceAs (Decidable (_ = _))

/-- A row of the view `ledger_view`. -/
structure LedgerViewRow where
  id : Uuid
  transactionId : Uuid
  accountId : Uuid
  entryType : EntryType
  amount : Money
  currency : String
  balanceAfter : Money
  description : Option String
  createdAt : Timestamp

/-- The view `public.ledger_view`. -/
def ledgerView (ctx : Context) (db : Db) : Multiset LedgerViewRow :=
  (db.ledgerEntries.bag.filter fun e =>
    authOrgId ctx = some e.orgId ∧ ¬ isServiceRole ctx).map fun e =>
      { id := e.id, transactionId := e.transactionId, accountId := e.accountId,
        entryType := e.entryType, amount := e.amount.1, currency := e.currency,
        balanceAfter := e.balanceAfter, description := e.description, createdAt := e.createdAt }

/-! ## The audit log -/

/-- A row `list_audit_logs` returns. -/
structure AuditLogRow where
  id : Uuid
  actorEmail : Option String
  action : AuditAction
  tableName : String
  recordId : Option Uuid
  changedFields : Option (List String)
  createdAt : Timestamp

def AuditEntry.listed (e : AuditEntry) : AuditLogRow where
  id := e.id
  actorEmail := e.actorEmail
  action := e.action
  tableName := e.tableName
  recordId := e.recordId
  changedFields := e.changedFields
  createdAt := e.createdAt

/-- `al.actor_id IN (SELECT user_id … WHERE org_id = o)`. -/
def actorIsMember (o : Uuid) (db : Db) (e : AuditEntry) : Prop :=
  e.actorId.any (fun u => (db.organizationMembers.get? (o, u)).isSome) = true

instance (o : Uuid) (db : Db) : DecidablePred (actorIsMember o db) :=
  fun _ => inferInstanceAs (Decidable (_ = true))

/-- The organization of a caller who may read the audit log: an active owner or
admin of the organization in the claim. -/
def auditedOrganization (ctx : Context) (uid : Uuid) (db : Db) : Option Uuid :=
  (((authOrgId ctx).bind fun o => db.organizationMembers.get? (o, uid)).filter fun m =>
    decide (m.role ∈ [UserRole.owner, .admin] ∧ m.isActive = true)).map (·.orgId)

/-- `public.list_audit_logs`. -/
def listAuditLogs (order : FixedOrder AuditEntry AuditEntry.createdAt) (ctx : Context)
    (tableName : Option String) (action : Option AuditAction) (limit offset : Option Int4)
    (db : Db) : Except ReadError (List AuditLogRow) := do
  let uid ← (authUid ctx).mapError .failed
  match auditedOrganization ctx uid db with
  | none => throw (.failed (.raised "Insufficient permissions to view audit logs." [] "42501" []))
  | some o => page 200 limit offset <|
      (order.sort (db.auditLog.bag.filter fun e => matchesFilter tableName e.tableName ∧
        matchesFilter action e.action ∧ actorIsMember o db e)).map AuditEntry.listed

end EnterpriseSystem
