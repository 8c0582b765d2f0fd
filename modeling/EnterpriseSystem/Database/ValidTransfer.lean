import EnterpriseSystem.Base.Run
import EnterpriseSystem.Base.SearchPath
import EnterpriseSystem.Database.Progress

/-!
# Valid transfers

A transfer between two active accounts that covers its amount, keeps the balances
in range and brings a fresh key passes every check of `process_transaction`.  It
still has to write to the audit log, and `write_audit_log` has an empty search
path and calls `auth_uid()`, `auth_role()` and `digest()` without their schemas.

* `Server.Follows` — these names are found by the rule of the search path.
* `Operation` — a call, or an account the service role inserts without one.
* `ValidTransfer` — what a transfer is asked to meet.
* `goesThrough_iff` — what it takes, beyond that, for the call to return.
* `not_goesThrough` — no valid transfer returns while `auth_uid` is not a
  function of the system schema.
-/

namespace EnterpriseSystem

open Relational Concurrency

/-! ## The names in the logging functions -/

/-- The functions that `write_audit_log` calls without a schema, apart from those
of PostgreSQL itself. -/
def unqualifiedNames : List String := ["auth_uid", "auth_role", "digest"]

section

variable {σ : Type} [DecidableEq σ]

/-- The server looks the names up under `SET search_path = ''`. -/
def Server.Follows (server : Server) (catalog : Catalog σ String) : Prop :=
  server.resolvesUnqualified =
    unqualifiedNames.all fun name => (catalog.resolve [] name).isSome

/-- The names are found exactly when all of them are names of the system schema. -/
theorem Server.Follows.resolves_iff {server : Server} {catalog : Catalog σ String}
    (h : server.Follows catalog) :
    server.resolvesUnqualified = true ↔
      ∀ name ∈ unqualifiedNames, catalog.defines catalog.system name = true := by
  rw [h, List.all_eq_true]
  simp only [Catalog.isSome_resolve_nil]

end

/-! ## Operations -/

/-- `INSERT INTO public.accounts …` by the service role, which row security does
not stop; the checks of the columns are those of the row's type. -/
def insertAccountRow (ctx : Context) (a : Account) : Rpc Unit := do
  statement (fun _ => [.row .accounts a.id]) fun db =>
    if db.accounts.contains a.id then .error (.uniqueViolation "accounts_pkey")
    else if ¬ db.organizations.contains a.orgId then
      .error (.foreignKeyViolation "accounts_org_id_fkey")
    else .ok ([.account a], ())
  detectBulkOperation ctx (ctx.uuid 0) "accounts" "INSERT"

/-- A call, or an account inserted by the service role. -/
inductive Operation where
  | call (c : RpcCall)
  | insertAccount (ctx : Context) (a : Account)

namespace Operation

def context : Operation → Context
  | call c => c.context
  | insertAccount ctx _ => ctx

/-- The operation as a program that returns nothing. -/
def rpc : Operation → Rpc Unit
  | call c => c.rpc
  | insertAccount ctx a => insertAccountRow ctx a

/-- What an operation does to the database: nothing when it raises an error. -/
def step (db : Db) (o : Operation) : Db :=
  match o.rpc.exec db with
  | .ok (_, db') => db'
  | .error _ => db

end Operation

/-- **An insertion** has found the organization of the account. -/
theorem insertAccountRow_ok {ctx : Context} {a : Account} {db db' : Db} {u : Unit}
    (h : (insertAccountRow ctx a).exec db = .ok (u, db')) :
    db.organizations.contains a.orgId = true ∧ (db.apply (.account a)).SameBooks db' := by
  rw [insertAccountRow, execute_bind_eq_ok] at h
  obtain ⟨_, db₁, hinsert, hbulk⟩ := h
  have hbulk := Db.SameBooks.of_quiet (quiet_detectBulkOperation _ _ _ _) hbulk
  rw [execute_statement_eq_ok] at hinsert
  obtain ⟨ws, hinsert, rfl⟩ := hinsert
  split at hinsert
  · cases hinsert
  · split at hinsert
    · cases hinsert
    · rename_i horg
      cases hinsert
      exact ⟨not_not.1 horg, hbulk⟩

/-! ## Accounts belong to organizations -/

/-- The organization of every account is there. -/
def AccountsBelong (db : Db) : Prop :=
  ∀ a ∈ db.accounts, db.organizations.contains a.orgId = true

namespace AccountsBelong

variable {db db' : Db}

theorem of_sameBooks (h : AccountsBelong db) (hsame : db.SameBooks db') : AccountsBelong db' := by
  intro a ha
  rw [hsame.accounts] at ha
  rw [hsame.organizations]
  exact h a ha

/-- One more account, of an organization that is there. -/
theorem apply_account (h : AccountsBelong db) {a : Account}
    (horg : db.organizations.contains a.orgId = true) : AccountsBelong (db.apply (.account a)) := by
  intro b hb
  rcases Table.mem_put_iff.1 hb with rfl | ⟨hb, -⟩
  · exact horg
  · exact h b hb

/-- A posting leaves the organization of its account as it is. -/
theorem post (h : AccountsBelong db) {args : TransactionArgs} {transactionId : Uuid}
    {accountId : Option Uuid} {entryType : EntryType} {amount : Numeric} {old new : Account}
    {e : LedgerEntry}
    (hposting : IsPosting args transactionId accountId entryType amount db old new e) :
    AccountsBelong (db.post new e) := by
  refine (h.apply_account (a := new) ?_ : AccountsBelong (db.apply (.account new)))
  obtain ⟨now, hnew⟩ := hposting.frame
  rw [hnew]
  exact h old (Table.mem_of_get? hposting.get?_old)

theorem transfer (h : AccountsBelong db) {ctx : Context} {args : TransactionArgs}
    {t : Transaction} (ht : IsTransfer ctx args t db db') : AccountsBelong db' := by
  obtain ⟨amount, source, source', debit, -, hdebit, hrest⟩ := ht.postings
  have hdebit' : IsPosting args t.id args.sourceAccount .debit amount
      (db.apply (.transaction t)) source source' debit := hdebit.congr rfl rfl
  have hrow : AccountsBelong (db.apply (.transaction t)) := h
  have hfirst := hrow.post hdebit'
  rcases hrest with ⟨-, hdb'⟩ | ⟨dest, dest', credit, hcredit, hdb'⟩
  · exact hfirst.of_sameBooks hdb'
  · exact (hfirst.post hcredit).of_sameBooks hdb'

/-- **One operation** keeps every account in an organization. -/
theorem step (h : AccountsBelong db) (o : Operation) : AccountsBelong (o.step db) := by
  cases o with
  | call c =>
    show AccountsBelong (c.step db)
    rcases c.step_cases db with hsame | ⟨ctx, args, a, -, -, ha⟩ | ⟨ctx, args, t, -, -, ht⟩
    · exact h.of_sameBooks hsame
    · exact (h.apply_account ha.organization).of_sameBooks ha.frame
    · exact h.transfer ht
  | insertAccount ctx a =>
    unfold Operation.step
    split
    · rename_i hexec
      obtain ⟨horg, hsame⟩ := insertAccountRow_ok hexec
      exact (h.apply_account horg).of_sameBooks hsame
    · exact h

/-- **A run of operations**, from a database without accounts. -/
theorem of_reach {ok : Db → Operation → Prop} {db₀ : Db}
    (hreach : Reach (Deterministic Operation.step) ok db₀.beforeAccounts db) :
    AccountsBelong db := by
  refine hreach.invariant (fun a ha => nomatch ha) ?_
  rintro db o db' h - rfl
  exact h.step o

end AccountsBelong

/-! ## What makes a transfer valid -/

/-- `balance >= -999999999999999.9999 AND balance <= 999999999999999.9999`, of a
balance that has not been stored yet. -/
def PassesBalanceCheck (balance : Numeric) : Prop :=
  Numeric.le (.finite (-9999999999999999999 / 10000)) balance = true ∧
    Numeric.le balance (.finite (9999999999999999999 / 10000)) = true

/-- A transfer of `x` from `source` to `dest` that is within the rate limit,
between two active accounts of the organization, covered, with at most four
fractional digits, and under a key no transaction has. -/
structure ValidTransfer (ctx : Context) (args : TransactionArgs) (source dest : Account) (x : ℚ)
    (db : Db) : Prop where
  limit : Admits ctx.now (db.rateLimits.get? ("txn:" ++ formatUuid (authOrgId ctx)))
  sourceActive : activeAccount args.orgId args.sourceAccount db = some source
  destActive : activeAccount args.orgId args.destAccount db = some dest
  distinct : args.sourceAccount ≠ args.destAccount
  amount : args.amount = some (.finite x)
  positive : 0 < x
  decimals : ∃ n : ℤ, x * 10 ^ 4 = n
  covered : source.type = .credit ∨ Numeric.le (.finite x) source.balance.1.toNumeric = true
  sourceBalance : PassesBalanceCheck (source.balance.1.toNumeric.sub (.finite x))
  destBalance : PassesBalanceCheck (dest.balance.1.toNumeric.add (.finite x))
  metadata : ∃ m, args.metadata = some m ∧ IsSafeMetadata m
  key : ∀ k, args.idempotencyKey = some k → ∀ t ∈ db.transactions, t.idempotencyKey ≠ some k

/-- The call returns. -/
def GoesThrough (ctx : Context) (args : TransactionArgs) (db : Db) : Prop :=
  ∃ t db', (processTransaction ctx args).exec db = .ok (t, db')

/-- What the call needs of its caller and its arguments besides: a claim that says
who calls, a type, an amount that fits its column, and a destination that is not
left below zero unless it is a credit account. -/
structure Storable (ctx : Context) (args : TransactionArgs) (dest : Account) (x : ℚ) : Prop where
  caller : ctx.session.sub ≠ none
  type : args.type ≠ none
  amount : x < 10 ^ 15
  destSolvent : dest.type ≠ .credit →
    (dest.balance.1.toNumeric.add (.finite x)).lt (.finite 0) = false

/-! ## Amounts that are stored exactly -/

section

variable {x : ℚ} {n : ℤ} (hx : x * 10 ^ 4 = n)

include hx

/-- An amount of at most 15 digits before the point fits its column. -/
theorem lt_iff_natAbs_lt (hpos : 0 < x) : x < 10 ^ 15 ↔ n.natAbs < 10 ^ 19 := by
  have hn : (0 : ℚ) < n := by
    rw [← hx]
    positivity
  have hn : 0 < n := by exact_mod_cast hn
  have hcast : x < 10 ^ 15 ↔ (n : ℚ) < 10 ^ 19 := by
    rw [← hx]
    constructor <;> intro h <;> linarith
  have hint : ((n : ℚ) < 10 ^ 19) ↔ n < 10 ^ 19 := by
    rw [← Int.cast_lt (R := ℚ)]
    push_cast
    rfl
  rw [hcast, hint]
  omega

/-- An amount with four fractional digits moves a balance to another such one. -/
theorem exists_move_exact (a : Account) (entryType : EntryType) :
    ∃ (k : ℤ) (q : ℚ), entryType.move a.balance.1.toNumeric (.finite x) = .finite q ∧
      q * 10 ^ 4 = k := by
  obtain ⟨m, hm, hunits⟩ := exists_units_of_inBalanceRange a.balance.2
  rw [hunits, Fixed.toNumeric_units]
  cases entryType with
  | debit =>
    refine ⟨m - n, m / 10 ^ 4 - x, Numeric.sub_finite _ _, ?_⟩
    push_cast
    rw [← hx]
    ring
  | credit =>
    refine ⟨m + n, m / 10 ^ 4 + x, Numeric.add_finite _ _, ?_⟩
    push_cast
    rw [← hx]
    ring

/-- **A balance can be moved** exactly when the new one passes its check, and is
not below zero except on a credit account. -/
theorem canMove_iff {a : Account} {entryType : EntryType} :
    CanMove entryType (.finite x) a ↔
      PassesBalanceCheck (entryType.move a.balance.1.toNumeric (.finite x)) ∧
        (a.type ≠ .credit →
          (entryType.move a.balance.1.toNumeric (.finite x)).lt (.finite 0) = false) := by
  obtain ⟨k, q, hmove, hq⟩ := exists_move_exact hx a entryType
  rw [CanMove, hmove]
  constructor
  · rintro ⟨⟨v, hrange⟩, hstore, hsolvent⟩
    obtain ⟨hk, rfl⟩ := (Fixed.store_exact_iff hq).1 hstore
    rw [InBalanceRange, Fixed.toNumeric_units_of_exact hq hk] at hrange
    rw [Fixed.toNumeric_units_of_exact hq hk] at hsolvent
    exact ⟨hrange, hsolvent⟩
  · rintro ⟨hpasses, hsolvent⟩
    have hk : k.natAbs < 10 ^ 19 := by
      obtain ⟨hlow, hhigh⟩ := hpasses
      simp only [Numeric.le_finite, decide_eq_true_eq] at hlow hhigh
      have hlow : (-9999999999999999999 : ℚ) ≤ k := by
        rw [← hq]
        linarith
      have hhigh : (k : ℚ) ≤ 9999999999999999999 := by
        rw [← hq]
        linarith
      have hlow : -9999999999999999999 ≤ k := by exact_mod_cast hlow
      have hhigh : k ≤ 9999999999999999999 := by exact_mod_cast hhigh
      omega
    have hvalue : (Fixed.units k hk : Money).toNumeric = .finite q :=
      Fixed.toNumeric_units_of_exact hq hk
    have hrange : InBalanceRange (.units k hk) := by
      rw [InBalanceRange, hvalue]
      exact hpasses
    exact ⟨⟨.units k hk, hrange⟩, (Fixed.store_exact_iff hq).2 ⟨hk, rfl⟩, hvalue ▸ hsolvent⟩

end

/-! ## When a valid transfer goes through -/

/-- A call that returns a new transaction knows its caller. -/
theorem caller_of_exec {ctx : Context} {args : TransactionArgs} {db : Db} {r : Transaction × Db}
    (hnone : existingTransaction args db = none)
    (h : (processTransaction ctx args).exec db = .ok r) : ctx.session.sub ≠ none := by
  rw [processTransaction, execute_rateLimited ⟨50, by decide⟩ (by decide)
    fun _ _ => execute_throw_ne_ok _] at h
  obtain ⟨row, -, -, h⟩ := h
  have hnone' : existingTransaction args (db.apply (.rateLimit row)) = none := hnone
  obtain ⟨t, db'⟩ := r
  unfold Rpc.exec at h
  rw [execute_select_bind, hnone', Option.filter_none, execute_bind_eq_ok] at h
  obtain ⟨_, db₁, -, h⟩ := h
  rw [postTransfer, execute_bind_eq_ok] at h
  obtain ⟨_, db₂, h, -⟩ := h
  rw [insertTransaction, execute_bind_eq_ok] at h
  obtain ⟨uid, db₃, huid, -⟩ := h
  rw [execute_evaluate_eq_ok] at huid
  intro hsub
  rw [authUid, hsub] at huid
  cases huid.1

namespace ValidTransfer

variable {ctx : Context} {args : TransactionArgs} {source dest : Account} {x : ℚ} {db : Db}

/-- The row of the transaction passes the checks of its columns. -/
theorem exists_newTransaction (h : ValidTransfer ctx args source dest x db)
    (hstorable : Storable ctx args dest x) : ∃ t, IsNewTransaction ctx args t := by
  obtain ⟨n, hn⟩ := h.decimals
  obtain ⟨m, hm, hsafe⟩ := h.metadata
  obtain ⟨type, htype⟩ := Option.ne_none_iff_exists'.1 hstorable.type
  have hlt := (lt_iff_natAbs_lt hn h.positive).1 hstorable.amount
  have hpositive : IsPositive (.units n hlt) := by
    rw [IsPositive, Fixed.toNumeric_units_of_exact hn hlt]
    simpa using h.positive
  obtain ⟨hsource, horg, -⟩ := activeAccount_eq_some.1 h.sourceActive
  refine ⟨{
    id := ctx.uuid 0
    orgId := source.orgId
    type := type
    amount := ⟨.units n hlt, hpositive⟩
    metadata := ⟨m, hsafe⟩
    status := .completed
    currency := "USD"
    sourceAccountId := args.sourceAccount
    destAccountId := args.destAccount
    idempotencyKey := args.idempotencyKey
    description := args.description
    processedAt := some ctx.now
    failedAt := none
    failureReason := none
    reversedAt := none
    createdAt := ctx.now
    updatedAt := ctx.now
    createdBy := ctx.session.sub
    differentAccounts := .inr (.inr h.distinct) }, ?_⟩
  exact {
    id := rfl
    orgId := horg
    type := htype
    amount := ⟨_, h.amount, (Fixed.store_exact_iff hn).2 ⟨hlt, rfl⟩⟩
    currency := rfl
    sourceAccountId := rfl
    destAccountId := rfl
    idempotencyKey := rfl
    metadata := hm
    failedAt := rfl }

/-- The checks in front of the transfer pass. -/
theorem isCovered (h : ValidTransfer ctx args source dest x db) : IsCovered args db source where
  sourceActive := h.sourceActive
  destActive := .inr ⟨dest, h.destActive⟩
  funds := by
    intro htype y hy
    rw [h.amount] at hy
    cases hy
    simpa [Numeric.le] using h.covered.resolve_left htype

/-- **A valid transfer that can be stored is ready**, when the names are found. -/
theorem ready (h : ValidTransfer ctx args source dest x db) (hstorable : Storable ctx args dest x)
    (hlogged : ctx.server.resolvesUnqualified = true)
    (horgs : AccountsBelong db) : TransferReady ctx args db := by
  obtain ⟨n, hn⟩ := h.decimals
  obtain ⟨hsource, horg, -⟩ := activeAccount_eq_some.1 h.sourceActive
  obtain ⟨hdest, -⟩ := activeAccount_eq_some.1 h.destActive
  have hmem : source ∈ db.accounts := by
    obtain ⟨i, -, hget⟩ := Option.bind_eq_some_iff.1 hsource
    exact Table.mem_of_get? hget
  have hcovers : source.type ≠ .credit →
      (source.balance.1.toNumeric.sub (.finite x)).lt (.finite 0) = false := by
    intro htype
    refine Numeric.sub_not_neg ?_
    simpa [Numeric.le] using h.covered.resolve_left htype
  exact {
    row := h.exists_newTransaction hstorable
    organization := ⟨source.orgId, horg, horgs source hmem⟩
    key := h.key
    covered := ⟨source, h.isCovered⟩
    debit := ⟨_, source, h.amount, hsource, (canMove_iff hn).2 ⟨h.sourceBalance, hcovers⟩⟩
    credit := .inr ⟨_, dest, h.amount, hdest,
      (canMove_iff hn).2 ⟨h.destBalance, hstorable.destSolvent⟩⟩
    logged := hlogged
    limit := h.limit }

/-- **A valid transfer that has gone through** has found the names, and could be
stored. -/
theorem storable (h : ValidTransfer ctx args source dest x db) (hgoes : GoesThrough ctx args db) :
    ctx.server.resolvesUnqualified = true ∧ Storable ctx args dest x := by
  obtain ⟨t, db', hexec⟩ := hgoes
  obtain ⟨n, hn⟩ := h.decimals
  have hnone := existingTransaction_eq_none h.key
  rcases processTransaction_ok hexec with ⟨hexisting, -⟩ | ht
  · rw [hnone] at hexisting
    cases hexisting
  · have hready := ht.ready hexec
    refine ⟨ht.logged, {
      caller := caller_of_exec hnone hexec
      type := by simp [ht.row.type]
      amount := ?_
      destSolvent := ?_ }⟩
    · obtain ⟨y, hy, hstore⟩ := ht.row.amount
      rw [h.amount] at hy
      cases hy
      obtain ⟨hlt, -⟩ := (Fixed.store_exact_iff hn).1 hstore
      exact (lt_iff_natAbs_lt hn h.positive).2 hlt
    · obtain ⟨hdest, -⟩ := activeAccount_eq_some.1 h.destActive
      rcases hready.credit with hc | ⟨y, a, hy, hrow, hmove⟩
      · rw [hc] at hdest
        cases hdest
      · rw [h.amount] at hy
        rw [hdest] at hrow
        cases hy
        cases hrow
        exact ((canMove_iff hn).1 hmove).2

end ValidTransfer

section

variable {σ : Type} [DecidableEq σ] {catalog : Catalog σ String} {ctx : Context}
  {args : TransactionArgs} {source dest : Account} {x : ℚ} {db₀ db : Db}

/-- **What a valid transfer needs besides**, in every state operations lead to:
that the names in the logging functions are names of the system schema, and that
it can be stored. -/
theorem goesThrough_iff {ok : Db → Operation → Prop}
    (hreach : Reach (Deterministic Operation.step) ok db₀.beforeAccounts db)
    (hserver : ctx.server.Follows catalog) (hfresh : ctx.Fresh 0 db)
    (hvalid : ValidTransfer ctx args source dest x db) :
    GoesThrough ctx args db ↔
      (∀ name ∈ unqualifiedNames, catalog.defines catalog.system name = true) ∧
        Storable ctx args dest x := by
  rw [← hserver.resolves_iff]
  constructor
  · exact hvalid.storable
  · rintro ⟨hlogged, hstorable⟩
    obtain ⟨u, hsub⟩ := Option.ne_none_iff_exists'.1 hstorable.caller
    obtain ⟨t, db', hexec, -⟩ := processTransaction_goesThrough hsub hfresh
      (hvalid.ready hstorable hlogged (.of_reach hreach))
    exact ⟨t, db', hexec⟩

/-- **No valid transfer goes through** while `auth_uid` is not a name of the system
schema: the call ends in an error, and the database stays as it is. -/
theorem not_goesThrough (hserver : ctx.server.Follows catalog)
    (houtside : catalog.defines catalog.system "auth_uid" = false)
    (hvalid : ValidTransfer ctx args source dest x db) :
    ¬ GoesThrough ctx args db ∧
      (Operation.call (.processTransaction ctx args)).step db = db := by
  have hraises : ¬ GoesThrough ctx args db := by
    intro hgoes
    have hnames := hserver.resolves_iff.1 (hvalid.storable hgoes).1
    have hfound := hnames "auth_uid" (by decide)
    rw [houtside] at hfound
    cases hfound
  refine ⟨hraises, ?_⟩
  unfold Operation.step
  split
  · rename_i hexec
    refine absurd ?_ hraises
    unfold Rpc.exec at hexec
    rw [Operation.rpc, RpcCall.rpc, execute_bind_eq_ok] at hexec
    obtain ⟨t, db', hexec, -⟩ := hexec
    exact ⟨t, db', hexec⟩
  · rfl

end

/-! ## Two accounts the service role has inserted -/

/-- The schemas the migrations use. -/
inductive Schema where
  | pgCatalog | publicSchema
  deriving DecidableEq

/-- The functions the migrations call: those of PostgreSQL, and those that the
migrations and their extensions create. -/
def Catalog.migrated : Catalog Schema String where
  defines
    | .pgCatalog, name => decide (name ∈ ["array_agg", "count", "current_setting", "encode",
        "format", "inet_client_addr", "jsonb_build_object", "jsonb_each", "now", "pg_notify"])
    | .publicSchema, name => decide (name ∈ ["auth_org_id", "auth_role", "auth_uid", "check_rate_limit",
        "create_account", "digest", "log_security_event", "process_transaction",
        "write_audit_log"])
  system := .pgCatalog

/-- The names are not found. -/
theorem follows_migrated : (Server.plain false).Follows Catalog.migrated := by
  unfold Server.Follows
  decide

namespace Operation

/-- An account of organization `1` without money in it. -/
def emptyAccount (id : Uuid) (type : AccountType) : Account where
  id := id
  orgId := 1
  name := ⟨"account", by decide⟩
  type := type
  status := .active
  currency := ⟨"USD", by decide⟩
  balance := ⟨.zero, by decide +kernel⟩
  metadata := emptyMetadata
  createdAt := 0
  updatedAt := 0
  createdBy := none

/-- The service role inserts an account. -/
def inserting (id : Uuid) (type : AccountType) : Operation :=
  .insertAccount { Context.plain false 7 1 0 300 with
    session := { (Context.plain false 7 1 0 300).session with role := .serviceRole } }
    (emptyAccount id type)

/-- A credit account `100` and a checking account `200`. -/
def insertions : List Operation := [inserting 100 .credit, inserting 200 .checking]

/-- A transfer of `10` between them. -/
def transferArgs : TransactionArgs := RpcCall.transferArgs 10 100 (some 200) (some "k")

end Operation

/-- The accounts are there, and the transfer between them is valid. -/
theorem validTransfer_insertions :
    let db := Operation.insertions.foldl Operation.step Db.starter.beforeAccounts
    ValidTransfer (.plain false 7 1 0 400) Operation.transferArgs
      (Operation.emptyAccount 100 .credit) (Operation.emptyAccount 200 .checking) 10 db where
  limit := by
    show Admits 0 none
    trivial
  sourceActive := by rfl
  destActive := by rfl
  distinct := by decide
  amount := rfl
  positive := by norm_num
  decimals := ⟨100000, by norm_num⟩
  covered := .inl rfl
  sourceBalance := ⟨by decide +kernel, by decide +kernel⟩
  destBalance := ⟨by decide +kernel, by decide +kernel⟩
  metadata := ⟨⟨"{}"⟩, rfl, by decide⟩
  key := fun _ _ t ht => nomatch ht

/-- The transfer between the two accounts ends in an error. -/
theorem not_goesThrough_insertions :
    let db := Operation.insertions.foldl Operation.step Db.starter.beforeAccounts
    ¬ GoesThrough (.plain false 7 1 0 400) Operation.transferArgs db ∧
      (Operation.call (.processTransaction (.plain false 7 1 0 400) Operation.transferArgs)).step db =
        db :=
  not_goesThrough follows_migrated (by decide) validTransfer_insertions

/-- Valid transfers do not go through in every state. -/
theorem not_validTransfersGoThrough :
    ¬ ∀ (db₀ db : Db) (ctx : Context) (args : TransactionArgs) (source dest : Account) (x : ℚ),
      Reach (Deterministic Operation.step)
        (fun _ o => o.context.server.Follows Catalog.migrated) db₀.beforeAccounts db →
      ctx.server.Follows Catalog.migrated → ValidTransfer ctx args source dest x db →
      GoesThrough ctx args db := by
  intro h
  have hreach : Reach (Deterministic Operation.step)
      (fun _ o => o.context.server.Follows Catalog.migrated) Db.starter.beforeAccounts
      (Operation.insertions.foldl Operation.step Db.starter.beforeAccounts) := by
    refine reach_foldl Operation.step (fun o ho db => ?_) _
    simp only [Operation.insertions, List.mem_cons, List.not_mem_nil, or_false] at ho
    rcases ho with rfl | rfl
    · exact follows_migrated
    · exact follows_migrated
  obtain ⟨t, db', hexec⟩ := h _ _ _ _ _ _ _ hreach follows_migrated validTransfer_insertions
  have hcheck : ((processTransaction (.plain false 7 1 0 400) Operation.transferArgs).exec
      (Operation.insertions.foldl Operation.step Db.starter.beforeAccounts)).isOk = false := by
    decide +kernel
  rw [hexec] at hcheck
  cases hcheck

-- the name that is not found is the one in the trigger on the source's balance
example : (match (processTransaction (.plain false 7 1 0 400) Operation.transferArgs).exec
    (Operation.insertions.foldl Operation.step Db.starter.beforeAccounts) with
    | .error e => some e
    | .ok _ => none) = some (.undefinedFunction "auth_uid()") := by
  decide +kernel

end EnterpriseSystem
