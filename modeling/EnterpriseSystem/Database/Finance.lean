import EnterpriseSystem.Database.Security

/-!
# Accounts and transactions

The two functions that write the financial tables, `process_transaction`
(migration 005) and `create_account` (007), with the triggers their statements
fire: `validate_balance` before an account is updated, and
`detect_bulk_operation` after a statement on accounts or transactions.

* An `UPDATE` of a balance is three steps of its call: it locks and reads the
  row, runs the trigger, and writes the row that has passed its checks.
* An `INSERT` checks its columns in PostgreSQL's order: assignment, `NOT NULL`,
  `CHECK` constraints by name, unique indexes, foreign keys.
* `RpcCall` — one call of one of the two with its caller and arguments;
  `RpcCall.step` — what it does to the database when nobody else is around.

The generated identifiers are numbered in the order in which a transfer
generates them.
-/

namespace EnterpriseSystem

open Relational Concurrency

/-! ## The balance of an account -/

/-- The error `validate_balance` raises. -/
def insufficientBalance (a : Account) (balance : Money) : PgError :=
  .raised "Insufficient funds. Account % balance would be %"
    [.ofUuid a.id, .ofNumeric balance.toNumeric] "23514"
    [("account_id", .ofUuid a.id), ("attempted_balance", .ofNumeric balance.toNumeric),
      ("account_type", .text a.type.label)]

/-- `public.validate_balance`, before an update that gives `old` the balance
`balance` and leaves its identifier and type alone. -/
def validateBalance (ctx : Context) (id : Uuid) (old : Account) (balance : Money) : Rpc Unit := do
  onlyIf (old.type ≠ .credit ∧ balance.toNumeric.lt (.finite 0) = true) do
    throw (insufficientBalance old balance)
  onlyIf (old.balance.1 ≠ balance) do
    let _ ← writeAuditLog ctx id .update "accounts" (some old.id)
      (some [("balance", .ofNumeric old.balance.1.toNumeric)])
      (some [("balance", .ofNumeric balance.toNumeric)])

/-- The row `id` of a table with an identifier that may be `NULL`. -/
def accountRow (id : Option Uuid) (db : Db) : Option Account := id.bind db.accounts.get?

/-- The lock an `UPDATE` or a `SELECT … FOR UPDATE` takes. -/
def lockAccount (id : Option Uuid) (db : Db) : List LockKey :=
  ((accountRow id db).map fun a => .row .accounts a.id).toList

/-- `UPDATE public.accounts SET balance = f balance, updated_at = now() WHERE
id = … RETURNING balance`, with its triggers, which generate the identifiers
`site` and `site + 1`. -/
def updateBalance (ctx : Context) (site : ℕ) (id : Option Uuid) (f : Numeric → Numeric) :
    Rpc (Option Money) := do
  let row ← statement (lockAccount id) fun db =>
    match accountRow id db with
    | none => .ok ([], none)
    | some a => do
      let balance ← storeMoney (some (f a.balance.1.toNumeric))
      let balance ← notNull "accounts" "balance" balance
      return ([], some (a, balance))
  match row with
  | none =>
    detectBulkOperation ctx (ctx.uuid (site + 1)) "accounts" "UPDATE"
    return none
  | some (old, balance) =>
    validateBalance ctx (ctx.uuid site) old balance
    let checked ← evaluate (check "accounts_balance_check" InBalanceRange balance)
    let new := { old with balance := checked, updatedAt := ctx.now }
    statement (fun _ => []) fun _ => .ok ([.account new], ())
    detectBulkOperation ctx (ctx.uuid (site + 1)) "accounts" "UPDATE"
    return some balance

/-! ## Processing a transaction -/

/-- The arguments of `process_transaction`. -/
structure TransactionArgs where
  orgId : Option Uuid
  type : Option TransactionType
  amount : Option Numeric
  sourceAccount : Option Uuid
  destAccount : Option Uuid
  description : Option String
  idempotencyKey : Option String
  metadata : Option Jsonb

/-- `v_txn IS NOT NULL`: every column of the row is non-null. -/
def Transaction.IsNotNull (t : Transaction) : Prop :=
  t.sourceAccountId ≠ none ∧ t.destAccountId ≠ none ∧ t.idempotencyKey ≠ none ∧
    t.description ≠ none ∧ t.processedAt ≠ none ∧ t.failedAt ≠ none ∧ t.failureReason ≠ none ∧
    t.reversedAt ≠ none ∧ t.createdBy ≠ none

instance (t : Transaction) : Decidable t.IsNotNull := inferInstanceAs (Decidable (_ ∧ _))

/-- The row of an organization with an idempotency key. -/
def existingTransaction (args : TransactionArgs) (db : Db) : Option Transaction :=
  args.idempotencyKey.bind fun k => args.orgId.bind fun o =>
    db.transactions.rows.find? fun t => decide (t.idempotencyKey = some k ∧ t.orgId = o)

/-- The account `id` when it is active and belongs to `orgId`. -/
def activeAccount (orgId id : Option Uuid) (db : Db) : Option Account :=
  (accountRow id db).filter fun a => decide (orgId = some a.orgId ∧ a.status = .active)

/-- The error of a source without the amount. -/
def insufficientFunds (balance : Option Balance) (amount : Option Numeric) : PgError :=
  .raised "Insufficient funds. Available: %, Requested: %"
    [.ofNumeric (balance.map (·.1.toNumeric)), .ofNumeric amount] "23514" []

/-- A comparison of two amounts that may be `NULL`. -/
def sqlLt (a b : Option Numeric) : Cond :=
  match a, b with
  | some x, some y => some (x.lt y)
  | _, _ => none

/-- The row `process_transaction` inserts into `transactions`, checked against
the columns of the table. -/
def newTransaction (ctx : Context) (uid id : Uuid) (args : TransactionArgs) :
    Except PgError Transaction := do
  let amount ← storeMoney args.amount
  let orgId ← notNull "transactions" "org_id" args.orgId
  let type ← notNull "transactions" "type" args.type
  let amount ← notNull "transactions" "amount" amount
  let metadata ← notNull "transactions" "metadata" args.metadata
  let amount ← check "transactions_amount_check" IsPositive amount
  let accounts ← check "txn_different_accounts" (fun p => DifferentAccounts p.1 p.2)
    (args.sourceAccount, args.destAccount)
  let metadata ← check "txn_metadata_safe" IsSafeMetadata metadata
  return {
    id, orgId, type, amount, metadata
    status := .completed
    currency := "USD"
    sourceAccountId := accounts.1.1
    destAccountId := accounts.1.2
    idempotencyKey := args.idempotencyKey
    description := args.description
    processedAt := some ctx.now
    failedAt := none
    failureReason := none
    reversedAt := none
    createdAt := ctx.now
    updatedAt := ctx.now
    createdBy := some uid
    differentAccounts := accounts.2 }

/-- A foreign key to `accounts`. -/
def referencesAccount (id : Option Uuid) (db : Db) : Bool := id.all fun i => db.accounts.contains i

/-- Whether a row has the idempotency key already. -/
def keyTaken (key : Option String) (db : Db) : Bool :=
  key.any fun k => db.transactions.rows.any fun t => decide (t.idempotencyKey = some k)

/-- `INSERT INTO public.transactions … RETURNING *`. -/
def insertTransaction (ctx : Context) (args : TransactionArgs) : Rpc Transaction := do
  let uid ← evaluate (authUid ctx)
  let t ← statement
    (fun _ => .row .transactions (ctx.uuid 0) :: (args.idempotencyKey.map .idempotencyKey).toList)
    fun db => do
      let t ← newTransaction ctx uid (ctx.uuid 0) args
      if db.transactions.contains t.id then .error (.uniqueViolation "transactions_pkey")
      else if keyTaken t.idempotencyKey db then
        .error (.uniqueViolation "transactions_idempotency_key_key")
      else if ¬ db.organizations.contains t.orgId then
        .error (.foreignKeyViolation "transactions_org_id_fkey")
      else if ¬ referencesAccount t.sourceAccountId db then
        .error (.foreignKeyViolation "transactions_source_account_id_fkey")
      else if ¬ referencesAccount t.destAccountId db then
        .error (.foreignKeyViolation "transactions_dest_account_id_fkey")
      else .ok ([.transaction t], t)
  detectBulkOperation ctx (ctx.uuid 1) "transactions" "INSERT"
  return t

/-- The row `process_transaction` inserts into `ledger_entries`, checked against
the columns of the table. -/
def newLedgerEntry (ctx : Context) (uid id : Uuid) (args : TransactionArgs) (transactionId : Uuid)
    (accountId : Option Uuid) (entryType : EntryType) (balanceAfter : Option Money) :
    Except PgError LedgerEntry := do
  let amount ← storeMoney args.amount
  let orgId ← notNull "ledger_entries" "org_id" args.orgId
  let accountId ← notNull "ledger_entries" "account_id" accountId
  let amount ← notNull "ledger_entries" "amount" amount
  let balanceAfter ← notNull "ledger_entries" "balance_after" balanceAfter
  let amount ← check "ledger_entries_amount_check" IsPositive amount
  return {
    id, orgId, transactionId, accountId, entryType, amount, balanceAfter
    currency := "USD"
    description := args.description
    metadata := emptyMetadata
    createdAt := ctx.now
    createdBy := some uid }

/-- `INSERT INTO public.ledger_entries`. -/
def insertLedgerEntry (ctx : Context) (id : Uuid) (args : TransactionArgs) (transactionId : Uuid)
    (accountId : Option Uuid) (entryType : EntryType) (balanceAfter : Option Money) :
    Rpc Unit := do
  let uid ← evaluate (authUid ctx)
  statement (fun _ => [.row .ledgerEntries id]) fun db => do
    let e ← newLedgerEntry ctx uid id args transactionId accountId entryType balanceAfter
    if db.ledgerEntries.contains e.id then .error (.uniqueViolation "ledger_entries_pkey")
    else if ¬ db.organizations.contains e.orgId then
      .error (.foreignKeyViolation "ledger_entries_org_id_fkey")
    else if ¬ db.accounts.contains e.accountId then
      .error (.foreignKeyViolation "ledger_entries_account_id_fkey")
    else .ok ([.ledgerEntry e], ())

/-- The balance after an entry: `balance - p_amount` or `balance + p_amount`. -/
def EntryType.move : EntryType → Numeric → Numeric → Numeric
  | debit, balance, amount => balance.sub amount
  | credit, balance, amount => balance.add amount

/-- The part of `process_transaction` that posts one entry: it moves the balance
of an account and writes the entry that says so. -/
def postEntry (ctx : Context) (site : ℕ) (args : TransactionArgs) (transactionId : Uuid)
    (accountId : Option Uuid) (entryType : EntryType) (amount : Numeric) : Rpc Unit := do
  let balance ← updateBalance ctx site accountId fun b => entryType.move b amount
  insertLedgerEntry ctx (ctx.uuid (site + 2)) args transactionId accountId entryType balance

/-- The checks of `process_transaction` before its first write, up to the locked
check of the source's balance. -/
def checkTransfer (args : TransactionArgs) : Rpc Unit := do
  let source ← select (activeAccount args.orgId args.sourceAccount)
  onlyIf (source.isNone = true) do
    throw (.raised "Source account not found or inactive." [] "P0002" [])
  let dest ← select (activeAccount args.orgId args.destAccount)
  onlyIf (args.destAccount ≠ none ∧ dest.isNone = true) do
    throw (.raised "Destination account not found or inactive." [] "P0002" [])
  let locked ← statement (lockAccount args.sourceAccount) fun db =>
    .ok ([], accountRow args.sourceAccount db)
  onlyIf ((sqlNe (locked.map (·.type)) (some .credit)).and
      (sqlLt (locked.map (·.balance.1.toNumeric)) args.amount)).Holds do
    throw (insufficientFunds (locked.map (·.balance)) args.amount)

/-- The writes of `process_transaction`. -/
def postTransfer (ctx : Context) (args : TransactionArgs) : Rpc Transaction := do
  let t ← insertTransaction ctx args
  -- the insertion has stopped an amount that is `NULL`
  let amount ← evaluate (notNull "transactions" "amount" args.amount)
  postEntry ctx 2 args t.id args.sourceAccount .debit amount
  onlyIf (args.destAccount ≠ none) do
    postEntry ctx 5 args t.id args.destAccount .credit amount
  let _ ← writeAuditLog ctx (ctx.uuid 8) .create "transactions" (some t.id) none
    (some [("type", .ofText (args.type.map TransactionType.label)),
      ("amount", .ofNumeric args.amount), ("source", .ofUuid args.sourceAccount),
      ("dest", .ofUuid args.destAccount), ("idempotency_key", .ofText args.idempotencyKey)])
  return t

/-- `public.process_transaction`. -/
def processTransaction (ctx : Context) (args : TransactionArgs) : Rpc Transaction := do
  let allowed ← checkRateLimit ctx (some ("txn:" ++ formatUuid (authOrgId ctx)))
    (some ⟨50, Int4.fits_fifty⟩) (some ⟨10, Int4.fits_ten⟩)
  onlyIf allowed.not.Holds do
    throw (.raised "Transaction rate limit exceeded." [] "57014" [])
  let existing ← select (existingTransaction args)
  match existing.filter fun t => decide t.IsNotNull with
  | some t => return t
  | none =>
    checkTransfer args
    postTransfer ctx args

/-! ## Creating an account -/

/-- The arguments of `create_account`. -/
structure AccountArgs where
  name : Option String
  type : Option AccountType
  currency : Option String
  metadata : Option Jsonb

/-- The row `create_account` inserts, checked against the columns of the table. -/
def newAccount (ctx : Context) (uid id : Uuid) (args : AccountArgs) : Except PgError Account := do
  let orgId ← notNull "accounts" "org_id" (authOrgId ctx)
  let name ← notNull "accounts" "name" args.name
  let type ← notNull "accounts" "type" args.type
  let currency ← notNull "accounts" "currency" args.currency
  let metadata ← notNull "accounts" "metadata" args.metadata
  let metadata ← check "account_metadata_safe" IsSafeMetadata metadata
  let balance ← check "accounts_balance_check" InBalanceRange Fixed.zero
  let currency ← check "accounts_currency_check" IsCurrency currency
  let name ← check "accounts_name_check" IsAccountName name
  return {
    id, orgId, name, type, currency, balance, metadata
    status := .active
    createdAt := ctx.now
    updatedAt := ctx.now
    createdBy := some uid }

/-- `INSERT INTO public.accounts … RETURNING *`. -/
def insertAccount (ctx : Context) (args : AccountArgs) : Rpc Account := do
  let uid ← evaluate (authUid ctx)
  let a ← statement (fun _ => [.row .accounts (ctx.uuid 0)]) fun db => do
    let a ← newAccount ctx uid (ctx.uuid 0) args
    if db.accounts.contains a.id then .error (.uniqueViolation "accounts_pkey")
    else if ¬ db.organizations.contains a.orgId then
      .error (.foreignKeyViolation "accounts_org_id_fkey")
    else .ok ([.account a], a)
  detectBulkOperation ctx (ctx.uuid 1) "accounts" "INSERT"
  return a

/-- `SELECT plan … WHERE id = public.auth_org_id()`. -/
def orgPlan (ctx : Context) (db : Db) : Option OrgPlan :=
  ((authOrgId ctx).bind db.organizations.get?).map (·.plan)

/-- `SELECT count(*) … WHERE org_id = public.auth_org_id()`. -/
def accountCount (ctx : Context) (db : Db) : ℕ :=
  db.accounts.rows.countP fun a => decide (authOrgId ctx = some a.orgId)

/-- `public.create_account`. -/
def createAccount (ctx : Context) (args : AccountArgs) : Rpc Account := do
  let allowed ← checkRateLimit ctx (some ("create_account:" ++ formatUuid (authOrgId ctx)))
    (some ⟨5, Int4.fits_five⟩) (some ⟨1, Int4.fits_one⟩)
  onlyIf allowed.not.Holds do
    throw (.raised "Rate limit exceeded." [] "57014" [])
  let plan ← select (orgPlan ctx)
  let count ← select (accountCount ctx)
  onlyIf ((sqlEq plan (some .free)).Holds ∧ 3 ≤ count) do
    throw (.raised "Free plan limited to 3 accounts. Upgrade to create more." [] raiseException [])
  let a ← insertAccount ctx args
  let _ ← writeAuditLog ctx (ctx.uuid 2) .create "accounts" (some a.id) none
    (some [("name", .ofText args.name), ("type", .ofText (args.type.map AccountType.label)),
      ("currency", .ofText args.currency)])
  return a

/-! ## Calls -/

/-- A call of one of the two functions. -/
inductive RpcCall where
  | createAccount (ctx : Context) (args : AccountArgs)
  | processTransaction (ctx : Context) (args : TransactionArgs)

/-- The context of the call. -/
def RpcCall.context : RpcCall → Context
  | createAccount ctx _ => ctx
  | processTransaction ctx _ => ctx

/-- The call as a program that returns nothing. -/
def RpcCall.rpc : RpcCall → Rpc Unit
  | createAccount ctx args => do
    let _ ← EnterpriseSystem.createAccount ctx args
  | processTransaction ctx args => do
    let _ ← EnterpriseSystem.processTransaction ctx args

/-- What a call does to the database: nothing when it raises an error. -/
def RpcCall.step (db : Db) (c : RpcCall) : Db :=
  match c.rpc.exec db with
  | .ok (_, db') => db'
  | .error _ => db

/-! ## Some calls

Calls of the user `7` of organization `1`, on a server that finds the unqualified
names: two accounts, and transfers between them. -/

namespace RpcCall

/-- An account of a type, under the identifier `id`. -/
def opening (id : ℕ) (type : AccountType) : RpcCall :=
  .createAccount (.plain true 7 1 0 id)
    { name := some "account", type := some type, currency := some "USD",
      metadata := some ⟨"{}"⟩ }

/-- The arguments of a transfer within organization `1`. -/
def transferArgs (amount : ℚ) (source : Uuid) (dest : Option Uuid) (key : Option String) :
    TransactionArgs where
  orgId := some 1
  type := some .transfer
  amount := some (.finite amount)
  sourceAccount := some source
  destAccount := dest
  description := none
  idempotencyKey := key
  metadata := some ⟨"{}"⟩

/-- A transfer without an idempotency key, whose identifiers follow `id`. -/
def transfer (id : ℕ) (amount : ℚ) (source : Uuid) (dest : Option Uuid) : RpcCall :=
  .processTransaction (.plain true 7 1 0 id) (transferArgs amount source dest none)

/-- A credit account `100` and a checking account `200`. -/
def openings : List RpcCall := [opening 100 .credit, opening 200 .checking]

end RpcCall

/-- The organization `1`, on a plan without a limit on accounts. -/
def Db.starter : Db := .withOrganization ⟨1, .starter⟩

end EnterpriseSystem
