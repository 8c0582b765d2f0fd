import EnterpriseSystem.Database.RateLimit
import EnterpriseSystem.Database.Transfer

/-!
# When a call goes through

The converse of `Transfer.lean`: on a database that satisfies what a call checks,
the call goes through.  A call writes its rows under identifiers it generates,
one after the other; `Context.Fresh` says that those still to come are not in
use, which every write under the next one preserves.

* `OpeningReady` — all that `create_account` checks; `createAccount_goesThrough`.
* `TransferReady` — all that `process_transaction` checks before it makes a
  transfer; `processTransaction_goesThrough`.
* `IsOpening.ready`, `IsTransfer.ready` — and they check no less than that.
-/

namespace EnterpriseSystem

open Relational Concurrency

/-! ## Generated identifiers -/

/-- No row of the tables a call inserts into has the identifier. -/
structure Unused (id : Uuid) (db : Db) : Prop where
  accounts : db.accounts.get? id = none
  transactions : db.transactions.get? id = none
  ledgerEntries : db.ledgerEntries.get? id = none
  auditLog : db.auditLog.get? id = none
  securityEvents : db.securityEvents.get? id = none

/-- A call generates at most nine identifiers. -/
def Context.generated : ℕ := 9

/-- The identifiers generated for a call differ from each other, and from the
`k`-th on from those in use. -/
structure Context.Fresh (ctx : Context) (k : ℕ) (db : Db) : Prop where
  injOn : Set.InjOn ctx.uuid (Set.Iio Context.generated)
  unused : ∀ n, k ≤ n → n < Context.generated → Unused (ctx.uuid n) db

/-- The identifier of the row a statement writes. -/
def Write.id : Write → Option Uuid
  | .organizationMember _ => none
  | .account a => some a.id
  | .transaction t => some t.id
  | .ledgerEntry e => some e.id
  | .auditEntry e => some e.id
  | .securityEvent e => some e.id
  | .rateLimit _ => none

theorem Unused.apply {id : Uuid} {db : Db} (h : Unused id db) {w : Write} (hw : w.id ≠ some id) :
    Unused id (db.apply w) := by
  have hne : ∀ {i : Uuid}, w.id = some i → i ≠ id := by
    rintro i hi rfl
    exact hw hi
  obtain ⟨haccounts, htransactions, hentries, haudit, hevents⟩ := h
  cases w with
  | organizationMember m => exact ⟨haccounts, htransactions, hentries, haudit, hevents⟩
  | rateLimit r => exact ⟨haccounts, htransactions, hentries, haudit, hevents⟩
  | account a =>
    exact ⟨(Table.get?_put_of_ne _ (hne rfl)).trans haccounts, htransactions, hentries, haudit,
      hevents⟩
  | transaction t =>
    exact ⟨haccounts, (Table.get?_put_of_ne _ (hne rfl)).trans htransactions, hentries, haudit,
      hevents⟩
  | ledgerEntry e =>
    exact ⟨haccounts, htransactions, (Table.get?_put_of_ne _ (hne rfl)).trans hentries, haudit,
      hevents⟩
  | auditEntry e =>
    exact ⟨haccounts, htransactions, hentries, (Table.get?_put_of_ne _ (hne rfl)).trans haudit,
      hevents⟩
  | securityEvent e =>
    exact ⟨haccounts, htransactions, hentries, haudit,
      (Table.get?_put_of_ne _ (hne rfl)).trans hevents⟩

namespace Context.Fresh

variable {ctx : Context} {k : ℕ} {db : Db}

theorem mono (h : ctx.Fresh k db) {k' : ℕ} (hk : k ≤ k') : ctx.Fresh k' db :=
  ⟨h.injOn, fun n hn => h.unused n (hk.trans hn)⟩

theorem head (h : ctx.Fresh k db) (hk : k < generated) : Unused (ctx.uuid k) db :=
  h.unused k le_rfl hk

/-- **A row under the next identifier** leaves the following ones unused. -/
theorem apply_new (h : ctx.Fresh k db) {w : Write} (hw : w.id = some (ctx.uuid k)) :
    ctx.Fresh (k + 1) (db.apply w) := by
  refine ⟨h.injOn, fun n hn hlt => (h.unused n (by omega) hlt).apply ?_⟩
  rw [hw]
  intro hc
  have : k = n := h.injOn (Nat.lt_of_succ_le (hn.trans hlt.le)) hlt (Option.some.inj hc)
  omega

/-- A row of a rate limit has no generated identifier. -/
theorem apply_rateLimit (h : ctx.Fresh k db) (r : RateLimit) :
    ctx.Fresh k (db.apply (.rateLimit r)) :=
  ⟨h.injOn, fun n hn hlt => (h.unused n hn hlt).apply (by simp [Write.id])⟩

/-- A row under another identifier leaves those to come unused. -/
theorem apply_of_ne (h : ctx.Fresh k db) {w : Write}
    (hw : ∀ n, k ≤ n → n < generated → w.id ≠ some (ctx.uuid n)) : ctx.Fresh k (db.apply w) :=
  ⟨h.injOn, fun n hn hlt => (h.unused n hn hlt).apply (hw n hn hlt)⟩

/-- An account that is there has none of the identifiers to come. -/
theorem id_ne (h : ctx.Fresh k db) {a : Account} (ha : db.accounts.get? a.id = some a) {n : ℕ}
    (hn : k ≤ n) (hlt : n < generated) : a.id ≠ ctx.uuid n := by
  intro hc
  have hunused := (h.unused n hn hlt).accounts
  rw [← hc, ha] at hunused
  cases hunused

/-- An account that is replaced keeps its identifier. -/
theorem apply_old (h : ctx.Fresh k db) {old new : Account} (hid : new.id = old.id)
    (hold : db.accounts.get? old.id = some old) : ctx.Fresh k (db.apply (.account new)) :=
  h.apply_of_ne fun _ hn hlt hc => h.id_ne hold hn hlt (hid ▸ Option.some.inj hc)

end Context.Fresh

/-! ## The logs -/

section

variable {ctx : Context} {u : Uuid} (hsub : ctx.session.sub = some u)
  (hlogged : ctx.server.resolvesUnqualified = true) {k : ℕ} {db : Db} (h : ctx.Fresh k db)

include hsub hlogged h

theorem writeAuditLog_goesThrough (hk : k < Context.generated) (action : AuditAction) (tableName : String)
    (recordId : Option Uuid) (oldData newData : Option JsonObject) :
    ∃ db', (writeAuditLog ctx (ctx.uuid k) action tableName recordId oldData newData).exec db =
      .ok (ctx.uuid k, db') ∧ db.SameBooks db' ∧ ctx.Fresh (k + 1) db' :=
  ⟨_, (writeAuditLog_eq_ok hsub).2 ⟨hlogged, (h.head hk).auditLog, rfl, rfl⟩,
    ⟨_, _, _, rfl⟩, h.apply_new rfl⟩

theorem detectBulkOperation_goesThrough (hk : k < Context.generated) (tableName op : String) :
    ∃ db', (detectBulkOperation ctx (ctx.uuid k) tableName op).exec db = .ok ((), db') ∧
      db.SameBooks db' ∧ ctx.Fresh (k + 1) db' := by
  rw [detectBulkOperation, authUid_of_sub hsub]
  unfold Rpc.exec
  rw [execute_evaluate_ok_bind, execute_select_bind, execute_onlyIf]
  split
  · exact ⟨_, (execute_bind_unit_eq_ok _).2 ⟨_, (logSecurityEvent_eq_ok hsub).2
      ⟨hlogged, (h.head hk).securityEvents, rfl, rfl⟩⟩, ⟨_, _, _, rfl⟩, h.apply_new rfl⟩
  · exact ⟨db, rfl, .refl db, h.mono (by omega)⟩

/-- The trigger on `accounts` passes a balance that is not below zero. -/
theorem validateBalance_goesThrough (hk : k < Context.generated) {old : Account} {balance : Money}
    (hsolvent : old.type ≠ .credit → balance.toNumeric.lt (.finite 0) = false) :
    ∃ db', (validateBalance ctx (ctx.uuid k) old balance).exec db = .ok ((), db') ∧
      db.SameBooks db' ∧ ctx.Fresh (k + 1) db' := by
  rw [validateBalance]
  simp only [Rpc.exec, execute_bind_eq_ok, execute_onlyIf_throw_eq_ok]
  have hpasses : ¬ (old.type ≠ .credit ∧ balance.toNumeric.lt (.finite 0) = true) := by
    rintro ⟨htype, hlt⟩
    rw [hsolvent htype] at hlt
    cases hlt
  by_cases hbalance : old.balance.1 = balance
  · refine ⟨db, ⟨(), db, ⟨hpasses, rfl⟩, ?_⟩, .refl db, h.mono (by omega)⟩
    rw [execute_onlyIf, if_neg (not_not.2 hbalance)]
  · obtain ⟨db', haudit, hsame, hfresh⟩ := writeAuditLog_goesThrough hsub hlogged h hk .update
      "accounts" (some old.id) (some [("balance", .ofNumeric old.balance.1.toNumeric)])
      (some [("balance", .ofNumeric balance.toNumeric)])
    refine ⟨db', ⟨(), db, ⟨hpasses, rfl⟩, ?_⟩, hsame, hfresh⟩
    rw [execute_onlyIf, if_pos hbalance, execute_bind_unit_eq_ok]
    exact ⟨_, haudit⟩

/-! ## Postings -/

/-- The balance of an account can be moved: the new one is in range, and not
below zero except on a credit account. -/
def CanMove (entryType : EntryType) (amount : Numeric) (a : Account) : Prop :=
  ∃ balance : Balance,
    Fixed.store 19 4 (entryType.move a.balance.1.toNumeric amount) = some balance.1 ∧
      (a.type ≠ .credit → balance.1.toNumeric.lt (.finite 0) = false)

theorem updateBalance_goesThrough (hk : k + 1 < Context.generated) {id : Option Uuid} {a : Account} (hrow : accountRow id db = some a)
    {entryType : EntryType} {amount : Numeric} (hmove : CanMove entryType amount a) :
    ∃ (balance : Balance) (db' : Db),
      (updateBalance ctx k id fun b => entryType.move b amount).exec db =
        .ok (some balance.1, db') ∧
      (db.apply (.account { a with balance, updatedAt := ctx.now })).SameBooks db' ∧
      ctx.Fresh (k + 2) db' := by
  obtain ⟨balance, hstore, hsolvent⟩ := hmove
  have hold : db.accounts.get? a.id = some a := by
    obtain ⟨i, -, hget⟩ := Option.bind_eq_some_iff.1 hrow
    rw [Table.key_of_get? hget]
    exact hget
  let new : Account := { a with balance, updatedAt := ctx.now }
  obtain ⟨db₁, htrigger, hsame₁, hfresh₁⟩ :=
    validateBalance_goesThrough hsub hlogged h (Nat.lt_of_succ_lt hk) hsolvent
  have hold₁ : db₁.accounts.get? a.id = some a := hsame₁.accounts ▸ hold
  obtain ⟨db₂, hbulk, hsame₂, hfresh₂⟩ := detectBulkOperation_goesThrough hsub hlogged
    (hfresh₁.apply_old (show new.id = a.id from rfl) hold₁)
    hk "accounts" "UPDATE"
  refine ⟨balance, db₂, ?_, (hsame₁.apply _).trans hsame₂, hfresh₂⟩
  unfold Rpc.exec at *
  rw [updateBalance, execute_bind_eq_ok]
  refine ⟨some (a, balance.1), db, ?_, ?_⟩
  · rw [execute_statement_eq_ok]
    refine ⟨[], ?_, rfl⟩
    simp only [hrow, storeMoney, hstore]
    rfl
  · rw [execute_bind_eq_ok]
    refine ⟨(), db₁, htrigger, ?_⟩
    rw [check_ok.2 rfl, execute_evaluate_ok_bind, execute_bind_eq_ok]
    refine ⟨(), _, (execute_statement_eq_ok _).2 ⟨_, rfl, rfl⟩, ?_⟩
    rw [execute_bind_eq_ok]
    exact ⟨(), db₂, hbulk, rfl⟩

/-- What an entry of the ledger needs besides the account it is posted to. -/
structure EntryReady (args : TransactionArgs) (db : Db) : Prop where
  amount : ∃ x, ∃ m : Amount, args.amount = some x ∧ Fixed.store 19 4 x = some m.1
  organization : ∃ o, args.orgId = some o ∧ db.organizations.contains o = true

omit hlogged in
theorem insertLedgerEntry_goesThrough (hk : k < Context.generated) {args : TransactionArgs} (hentry : EntryReady args db)
    {accountId : Uuid} (haccount : db.accounts.contains accountId = true) (transactionId : Uuid)
    (entryType : EntryType) (balance : Money) :
    ∃ e : LedgerEntry, e.id = ctx.uuid k ∧
      (insertLedgerEntry ctx (ctx.uuid k) args transactionId (some accountId) entryType
        (some balance)).exec db = .ok ((), db.apply (.ledgerEntry e)) := by
  obtain ⟨⟨x, m, hx, hm⟩, o, ho, horg⟩ := hentry
  let e : LedgerEntry := {
    id := ctx.uuid k
    orgId := o
    transactionId, accountId, entryType
    amount := m
    balanceAfter := balance
    currency := "USD"
    description := args.description
    metadata := emptyMetadata
    createdAt := ctx.now
    createdBy := some u }
  have hnew : newLedgerEntry ctx u (ctx.uuid k) args transactionId (some accountId)
      entryType (some balance) = .ok e := by
    refine bind_eq_ok.2 ⟨some m.1, storeMoney_ok.2 ⟨x, hx, hm⟩, ?_⟩
    refine bind_eq_ok.2 ⟨o, notNull_ok.2 ho, ?_⟩
    refine bind_eq_ok.2 ⟨accountId, rfl, ?_⟩
    refine bind_eq_ok.2 ⟨m.1, rfl, ?_⟩
    refine bind_eq_ok.2 ⟨balance, rfl, ?_⟩
    exact bind_eq_ok.2 ⟨m, check_ok.2 rfl, rfl⟩
  refine ⟨e, rfl, ?_⟩
  unfold Rpc.exec
  rw [insertLedgerEntry, authUid_of_sub hsub, execute_evaluate_ok_bind, execute_statement_eq_ok]
  refine ⟨[.ledgerEntry e], ?_, rfl⟩
  have hid : db.ledgerEntries.contains e.id = false :=
    Table.contains_eq_false_iff.2 (h.head hk).ledgerEntries
  have haccount : db.accounts.contains e.accountId = true := haccount
  have horg : db.organizations.contains e.orgId = true := horg
  simp only [hnew, bind, Except.bind, hid, horg, haccount, Bool.false_eq_true, not_true, if_false]

/-- **A posting goes through**, and leaves the organizations and the other
accounts as they are. -/
theorem postEntry_goesThrough (hk : k + 2 < Context.generated) {args : TransactionArgs} (hentry : EntryReady args db)
    {id : Option Uuid} {a : Account} (hrow : accountRow id db = some a) {entryType : EntryType}
    {amount : Numeric} (hmove : CanMove entryType amount a) (transactionId : Uuid) :
    ∃ new db', (postEntry ctx k args transactionId id entryType amount).exec db = .ok ((), db') ∧
      id = some new.id ∧ db'.accounts = (db.apply (.account new)).accounts ∧
      db'.organizations = db.organizations ∧ ctx.Fresh (k + 3) db' := by
  have hid : id = some a.id := by
    obtain ⟨i, hi, hget⟩ := Option.bind_eq_some_iff.1 hrow
    rw [hi, Table.key_of_get? hget]
  obtain ⟨balance, db₁, hupdate, hsame, hfresh⟩ :=
    updateBalance_goesThrough hsub hlogged h (Nat.lt_of_succ_lt hk) hrow hmove
  have hnew : db₁.accounts.contains a.id = true := by
    rw [Table.contains_eq_true_iff, hsame.accounts]
    exact ⟨_, Table.get?_put_self db.accounts { a with balance, updatedAt := ctx.now }⟩
  have hentry₁ : EntryReady args db₁ := by
    refine ⟨hentry.amount, ?_⟩
    rw [hsame.organizations]
    exact hentry.organization
  obtain ⟨e, he, hinsert⟩ := insertLedgerEntry_goesThrough hsub hfresh hk hentry₁ hnew
    transactionId entryType balance.1
  refine ⟨{ a with balance, updatedAt := ctx.now }, db₁.apply (.ledgerEntry e), ?_, hid,
    hsame.accounts, hsame.organizations, hfresh.apply_new (congrArg some he)⟩
  unfold Rpc.exec at *
  rw [postEntry, execute_bind_eq_ok]
  refine ⟨some balance.1, db₁, hupdate, ?_⟩
  rw [hid]
  exact hinsert

end

/-! ## Transfers -/

/-- All that `process_transaction` checks before it makes a transfer, but the
rate limit. -/
structure CanTransfer (ctx : Context) (args : TransactionArgs) (db : Db) : Prop where
  row : ∃ t, IsNewTransaction ctx args t
  organization : ∃ o, args.orgId = some o ∧ db.organizations.contains o = true
  key : ∀ k, args.idempotencyKey = some k → ∀ t ∈ db.transactions, t.idempotencyKey ≠ some k
  covered : ∃ source, IsCovered args db source
  debit : ∃ x a, args.amount = some x ∧ accountRow args.sourceAccount db = some a ∧
    CanMove .debit x a
  credit : args.destAccount = none ∨ ∃ x a, args.amount = some x ∧
    accountRow args.destAccount db = some a ∧ CanMove .credit x a
  logged : ctx.server.resolvesUnqualified = true

/-- All that `process_transaction` checks before it makes a transfer. -/
structure TransferReady (ctx : Context) (args : TransactionArgs) (db : Db) : Prop
    extends CanTransfer ctx args db where
  limit : Admits ctx.now (db.rateLimits.get? ("txn:" ++ formatUuid (authOrgId ctx)))

/-- No transaction is found under a key that no transaction has. -/
theorem existingTransaction_eq_none {args : TransactionArgs} {db : Db}
    (hkey : ∀ k, args.idempotencyKey = some k → ∀ t ∈ db.transactions, t.idempotencyKey ≠ some k) :
    existingTransaction args db = none := by
  refine Option.eq_none_iff_forall_ne_some.2 fun t ht => ?_
  obtain ⟨k, hk, ht⟩ := Option.bind_eq_some_iff.1 ht
  obtain ⟨o, -, ht⟩ := Option.bind_eq_some_iff.1 ht
  have hmatch := List.find?_some ht
  exact hkey k hk t (List.mem_of_find?_eq_some ht) (of_decide_eq_true hmatch).1

theorem IsNewTransaction.exists_ok {ctx : Context} {args : TransactionArgs} {t : Transaction}
    (ht : IsNewTransaction ctx args t) (u : Uuid) :
    ∃ t', newTransaction ctx u (ctx.uuid 0) args = .ok t' := by
  obtain ⟨x, hx, hm⟩ := ht.amount
  have hdifferent : DifferentAccounts args.sourceAccount args.destAccount := by
    rw [← ht.sourceAccountId, ← ht.destAccountId]
    exact t.differentAccounts
  refine exists_bind_eq_ok (storeMoney_ok.2 ⟨x, hx, hm⟩) ?_
  refine exists_bind_eq_ok (notNull_ok.2 ht.orgId) ?_
  refine exists_bind_eq_ok (notNull_ok.2 ht.type) ?_
  refine exists_bind_eq_ok (a := t.amount.1) rfl ?_
  refine exists_bind_eq_ok (notNull_ok.2 ht.metadata) ?_
  refine exists_bind_eq_ok (a := t.amount) (check_ok.2 rfl) ?_
  refine exists_bind_eq_ok (a := ⟨(args.sourceAccount, args.destAccount), hdifferent⟩)
    (check_ok.2 rfl) ?_
  exact exists_bind_eq_ok (a := t.metadata) (check_ok.2 rfl) ⟨_, rfl⟩

section

variable {ctx : Context} {u : Uuid} (hsub : ctx.session.sub = some u) {args : TransactionArgs}
  {db : Db} (hfresh : ctx.Fresh 0 db)

include hsub hfresh

/-- The row of the transaction is inserted. -/
theorem insertTransaction_goesThrough (hready : CanTransfer ctx args db) :
    ∃ t db', (insertTransaction ctx args).exec db = .ok (t, db') ∧ IsNewTransaction ctx args t ∧
      (db.apply (.transaction t)).SameBooks db' ∧ ctx.Fresh 2 db' := by
  obtain ⟨t₀, ht₀⟩ := hready.row
  obtain ⟨t, hnew⟩ := ht₀.exists_ok u
  have ht := newTransaction_ok hnew
  have hfresh₁ : ctx.Fresh 1 (db.apply (.transaction t)) := hfresh.apply_new (congrArg some ht.id)
  obtain ⟨db', hbulk, hsame, hfresh₂⟩ :=
    detectBulkOperation_goesThrough hsub hready.logged hfresh₁ (by decide) "transactions" "INSERT"
  refine ⟨t, db', ?_, ht, hsame, hfresh₂⟩
  have hid : db.transactions.contains t.id = false := by
    rw [ht.id]
    exact Table.contains_eq_false_iff.2 (hfresh.head (by decide)).transactions
  have hkey : keyTaken t.idempotencyKey db = false := by
    rw [ht.idempotencyKey]
    exact keyTaken_eq_false_iff.2 hready.key
  have horg : db.organizations.contains t.orgId = true := by
    obtain ⟨o, ho, horg⟩ := hready.organization
    rw [ht.orgId] at ho
    cases ho
    exact horg
  have hreferences : ∀ {id : Option Uuid} {a : Account}, accountRow id db = some a →
      referencesAccount id db = true := by
    intro id a hrow
    obtain ⟨i, rfl, hget⟩ := Option.bind_eq_some_iff.1 hrow
    exact Table.contains_eq_true_iff.2 ⟨a, hget⟩
  have hsource : referencesAccount t.sourceAccountId db = true := by
    obtain ⟨_, a, -, hrow, -⟩ := hready.debit
    rw [ht.sourceAccountId]
    exact hreferences hrow
  have hdest : referencesAccount t.destAccountId db = true := by
    rw [ht.destAccountId]
    rcases hready.credit with hnone | ⟨_, a, -, hrow, -⟩
    · rw [hnone]
      rfl
    · exact hreferences hrow
  unfold Rpc.exec at *
  rw [insertTransaction, authUid_of_sub hsub, execute_evaluate_ok_bind, execute_bind_eq_ok]
  refine ⟨t, db.apply (.transaction t), ?_, ?_⟩
  · rw [execute_statement_eq_ok]
    refine ⟨[.transaction t], ?_, rfl⟩
    simp only [hnew, bind, Except.bind, hid, hkey, horg, hsource, hdest, Bool.false_eq_true,
      not_true, if_false]
  · rw [execute_bind_eq_ok]
    exact ⟨(), db', hbulk, rfl⟩

omit hsub hfresh in
/-- The checks in front of a transfer pass. -/
theorem checkTransfer_goesThrough {source : Account} (h : IsCovered args db source) :
    (checkTransfer args).exec db = .ok ((), db) := by
  have hrow := (activeAccount_eq_some.1 h.sourceActive).1
  unfold Rpc.exec
  rw [checkTransfer, execute_select_bind, execute_bind_eq_ok]
  refine ⟨(), db, (execute_onlyIf_throw_eq_ok _).2 ⟨by simp [h.sourceActive], rfl⟩, ?_⟩
  rw [execute_select_bind, execute_bind_eq_ok]
  refine ⟨(), db, (execute_onlyIf_throw_eq_ok _).2 ⟨?_, rfl⟩, ?_⟩
  · rintro ⟨hdest, hnone⟩
    obtain hc | ⟨a, ha⟩ := h.destActive
    · exact hdest hc
    · rw [ha] at hnone
      cases hnone
  · rw [execute_bind_eq_ok]
    refine ⟨accountRow args.sourceAccount db, db,
      (execute_statement_eq_ok _).2 ⟨[], rfl, rfl⟩, ?_⟩
    rw [execute_onlyIf_throw_eq_ok]
    refine ⟨?_, rfl⟩
    rw [hrow, Cond.holds_and]
    rintro ⟨htype, hlt⟩
    cases hamount : args.amount with
    | none =>
      rw [hamount] at hlt
      cases hlt
    | some x =>
      rw [hamount] at hlt
      have hcovers := h.funds (by simpa using htype) x hamount
      simp [sqlLt, hcovers] at hlt

/-- The writes of a transfer are made. -/
theorem postTransfer_goesThrough (hready : CanTransfer ctx args db) :
    ∃ t db', (postTransfer ctx args).exec db = .ok (t, db') := by
  obtain ⟨x, source, hx, hsource, hdebit⟩ := hready.debit
  obtain ⟨t₀, ht₀⟩ := hready.row
  have hentry : ∀ {db' : Db}, db'.organizations = db.organizations → EntryReady args db' := by
    intro db' heq
    obtain ⟨y, hy, hm⟩ := ht₀.amount
    refine ⟨⟨y, t₀.amount, hy, hm⟩, ?_⟩
    rw [heq]
    exact hready.organization
  obtain ⟨t, db₁, hinsert, ht, hsame₁, hfresh₁⟩ := insertTransaction_goesThrough hsub hfresh hready
  have hsource₁ : accountRow args.sourceAccount db₁ = some source := by
    rw [accountRow, hsame₁.accounts]
    exact hsource
  obtain ⟨source', db₂, hpost, hid, haccounts, horgs, hfresh₂⟩ := postEntry_goesThrough hsub
    hready.logged hfresh₁ (by decide) (hentry hsame₁.organizations) hsource₁ hdebit t.id
  obtain ⟨db₃, hpost', hfresh₃⟩ : ∃ db₃, Rpc.exec (onlyIf (args.destAccount ≠ none) do
      postEntry ctx 5 args t.id args.destAccount .credit x) db₂ = .ok ((), db₃) ∧
        ctx.Fresh 8 db₃ := by
    unfold Rpc.exec
    rw [execute_onlyIf]
    split
    · rename_i hdest
      obtain ⟨y, dest, hy, hdestRow, hcredit⟩ := hready.credit.resolve_left hdest
      cases hx.symm.trans hy
      have hrow : accountRow args.destAccount db₂ = some dest := by
        rw [accountRow, haccounts, ← accountRow, accountRow_put_of_ne (ht.dest_ne hid), accountRow,
          hsame₁.accounts]
        exact hdestRow
      obtain ⟨_, db₃, hpost', -, -, -, hfresh₃⟩ := postEntry_goesThrough hsub
        hready.logged hfresh₂ (by decide) (hentry (horgs.trans hsame₁.organizations)) hrow hcredit t.id
      exact ⟨db₃, hpost', hfresh₃⟩
    · exact ⟨db₂, rfl, hfresh₂.mono (by omega)⟩
  obtain ⟨db₄, haudit, -⟩ := writeAuditLog_goesThrough hsub hready.logged hfresh₃ (by decide)
    .create "transactions" (some t.id) none
    (some [("type", .ofText (args.type.map TransactionType.label)),
      ("amount", .ofNumeric args.amount), ("source", .ofUuid args.sourceAccount),
      ("dest", .ofUuid args.destAccount), ("idempotency_key", .ofText args.idempotencyKey)])
  refine ⟨t, db₄, ?_⟩
  unfold Rpc.exec at *
  rw [postTransfer, execute_bind_eq_ok]
  refine ⟨t, db₁, hinsert, ?_⟩
  rw [hx, notNull_ok.2 rfl, execute_evaluate_ok_bind, execute_bind_eq_ok]
  refine ⟨(), db₂, hpost, ?_⟩
  rw [execute_bind_eq_ok]
  refine ⟨(), db₃, hpost', ?_⟩
  rw [execute_bind_eq_ok]
  exact ⟨_, db₄, hx ▸ haudit, rfl⟩

/-- **A call that is ready makes its transfer.** -/
theorem processTransaction_goesThrough (hready : TransferReady ctx args db) :
    ∃ t db', (processTransaction ctx args).exec db = .ok (t, db') ∧ IsTransfer ctx args t db db' := by
  obtain ⟨row, htake, htokens⟩ := (admits_iff ⟨50, by decide⟩ ⟨10, by decide⟩ ctx db
    (by decide)).1 hready.limit
  obtain ⟨source, hcovered⟩ := hready.covered
  have hcovered' : IsCovered args (db.apply (.rateLimit row)) source := hcovered.congr rfl
  have hcan : CanTransfer ctx args (db.apply (.rateLimit row)) :=
    ⟨hready.row, hready.organization, hready.key, ⟨source, hcovered'⟩, hready.debit, hready.credit,
      hready.logged⟩
  obtain ⟨t, db', hpost⟩ := postTransfer_goesThrough hsub (hfresh.apply_rateLimit row) hcan
  have hnone : existingTransaction args db = none := existingTransaction_eq_none hready.key
  have hexec : (processTransaction ctx args).exec db = .ok (t, db') := by
    rw [processTransaction, execute_rateLimited ⟨50, by decide⟩ (by decide)
      fun _ _ => execute_throw_ne_ok _]
    refine ⟨row, htake, htokens, ?_⟩
    have hnone' : existingTransaction args (db.apply (.rateLimit row)) = none := hnone
    unfold Rpc.exec
    rw [execute_select_bind, hnone', Option.filter_none, execute_bind_eq_ok]
    exact ⟨(), _, checkTransfer_goesThrough hcovered', hpost⟩
  refine ⟨t, db', hexec, (processTransaction_ok hexec).resolve_left ?_⟩
  rintro ⟨hexisting, -⟩
  rw [hnone] at hexisting
  cases hexisting

end

/-- **A transfer that has been made was ready.** -/
theorem IsTransfer.ready {ctx : Context} {args : TransactionArgs} {t : Transaction} {db db' : Db}
    (h : IsTransfer ctx args t db db')
    (hexec : (processTransaction ctx args).exec db = .ok (t, db')) : TransferReady ctx args db := by
  obtain ⟨x, source, source', debit, hx, hdebit, hrest⟩ := h.postings
  refine {
    row := ⟨t, h.row⟩
    organization := ⟨t.orgId, h.row.orgId, h.organization⟩
    key := h.row.idempotencyKey ▸ h.key
    covered := h.covered
    debit := ⟨x, source, hx, hdebit.row, source'.balance, hdebit.balance, hdebit.solvent⟩
    credit := ?_
    logged := h.logged
    limit := ?_ }
  · rcases hrest with ⟨hnone, -⟩ | ⟨dest, dest', credit, hcredit, -⟩
    · exact .inl hnone
    · have hrow := hcredit.row
      rw [h.row.accountRow_dest hdebit.accountId_eq] at hrow
      exact .inr ⟨x, dest, hx, hrow, dest'.balance, hcredit.balance, hcredit.solvent⟩
  · rw [processTransaction, execute_rateLimited ⟨50, by decide⟩ (by decide)
      fun _ _ => execute_throw_ne_ok _] at hexec
    obtain ⟨row, htake, htokens, -⟩ := hexec
    exact (admits_iff _ _ ctx db (by decide)).2 ⟨row, htake, htokens⟩

/-! ## Openings -/

/-- All that `create_account` checks. -/
structure OpeningReady (ctx : Context) (args : AccountArgs) (db : Db) : Prop where
  limit : Admits ctx.now (db.rateLimits.get? ("create_account:" ++ formatUuid (authOrgId ctx)))
  plan : ¬ ((sqlEq (orgPlan ctx db) (some .free)).Holds ∧ 3 ≤ accountCount ctx db)
  row : ∃ a, IsNewAccount ctx args a
  organization : ∃ o, authOrgId ctx = some o ∧ db.organizations.contains o = true
  logged : ctx.server.resolvesUnqualified = true

theorem IsNewAccount.exists_ok {ctx : Context} {args : AccountArgs} {a : Account}
    (ha : IsNewAccount ctx args a) (u : Uuid) :
    ∃ a', newAccount ctx u (ctx.uuid 0) args = .ok a' := by
  refine exists_bind_eq_ok (notNull_ok.2 ha.orgId) ?_
  refine exists_bind_eq_ok (notNull_ok.2 ha.name) ?_
  refine exists_bind_eq_ok (notNull_ok.2 ha.type) ?_
  refine exists_bind_eq_ok (notNull_ok.2 ha.currency) ?_
  refine exists_bind_eq_ok (notNull_ok.2 ha.metadata) ?_
  refine exists_bind_eq_ok (a := a.metadata) (check_ok.2 rfl) ?_
  refine exists_bind_eq_ok (a := a.balance) (check_ok.2 ha.balance.symm) ?_
  refine exists_bind_eq_ok (a := a.currency) (check_ok.2 rfl) ?_
  exact exists_bind_eq_ok (a := a.name) (check_ok.2 rfl) ⟨_, rfl⟩

/-- The row of the account is inserted. -/
theorem insertAccount_goesThrough {ctx : Context} {u : Uuid} (hsub : ctx.session.sub = some u)
    {args : AccountArgs} {db : Db} (hfresh : ctx.Fresh 0 db)
    (hlogged : ctx.server.resolvesUnqualified = true) (hrow : ∃ a, IsNewAccount ctx args a)
    (horg : ∃ o, authOrgId ctx = some o ∧ db.organizations.contains o = true) :
    ∃ a db', (insertAccount ctx args).exec db = .ok (a, db') ∧ ctx.Fresh 2 db' := by
  obtain ⟨a₀, ha₀⟩ := hrow
  obtain ⟨a, hnew⟩ := ha₀.exists_ok u
  have ha := newAccount_ok hnew
  have hfresh₁ : ctx.Fresh 1 (db.apply (.account a)) := hfresh.apply_new (congrArg some ha.id)
  obtain ⟨db', hbulk, -, hfresh₂⟩ :=
    detectBulkOperation_goesThrough hsub hlogged hfresh₁ (by decide) "accounts" "INSERT"
  refine ⟨a, db', ?_, hfresh₂⟩
  have hid : db.accounts.contains a.id = false := by
    rw [ha.id]
    exact Table.contains_eq_false_iff.2 (hfresh.head (by decide)).accounts
  have horg : db.organizations.contains a.orgId = true := by
    obtain ⟨o, ho, horg⟩ := horg
    rw [ha.orgId] at ho
    cases ho
    exact horg
  unfold Rpc.exec at *
  rw [insertAccount, authUid_of_sub hsub, execute_evaluate_ok_bind, execute_bind_eq_ok]
  refine ⟨a, db.apply (.account a), ?_, ?_⟩
  · rw [execute_statement_eq_ok]
    refine ⟨[.account a], ?_, rfl⟩
    simp only [hnew, bind, Except.bind, hid, horg, Bool.false_eq_true, not_true, if_false]
  · rw [execute_bind_eq_ok]
    exact ⟨(), db', hbulk, rfl⟩

/-- **A call that is ready opens its account.** -/
theorem createAccount_goesThrough {ctx : Context} {u : Uuid} (hsub : ctx.session.sub = some u)
    {args : AccountArgs} {db : Db} (hfresh : ctx.Fresh 0 db) (hready : OpeningReady ctx args db) :
    ∃ a db', (createAccount ctx args).exec db = .ok (a, db') := by
  obtain ⟨row, htake, htokens⟩ := (admits_iff ⟨5, by decide⟩ ⟨1, by decide⟩ ctx db
    (by decide)).1 hready.limit
  obtain ⟨a, db₁, hinsert, hfresh₁⟩ := insertAccount_goesThrough hsub
    (hfresh.apply_rateLimit row) hready.logged hready.row hready.organization
  obtain ⟨db₂, haudit, -⟩ := writeAuditLog_goesThrough hsub hready.logged hfresh₁ (by decide)
    .create "accounts" (some a.id) none
    (some [("name", .ofText args.name), ("type", .ofText (args.type.map AccountType.label)),
      ("currency", .ofText args.currency)])
  refine ⟨a, db₂, ?_⟩
  rw [createAccount, execute_rateLimited ⟨5, by decide⟩ (by decide)
    fun _ _ => execute_throw_ne_ok _]
  refine ⟨row, htake, htokens, ?_⟩
  unfold Rpc.exec at *
  rw [execute_select_bind, execute_select_bind, execute_bind_eq_ok]
  refine ⟨(), _, (execute_onlyIf_throw_eq_ok _).2 ⟨hready.plan, rfl⟩, ?_⟩
  rw [execute_bind_eq_ok]
  refine ⟨a, db₁, hinsert, ?_⟩
  rw [execute_bind_eq_ok]
  exact ⟨_, db₂, haudit, rfl⟩

/-- **An account that has been opened was ready.** -/
theorem IsOpening.ready {ctx : Context} {args : AccountArgs} {a : Account} {db db' : Db}
    (h : IsOpening ctx args a db db') (hexec : (createAccount ctx args).exec db = .ok (a, db')) :
    OpeningReady ctx args db := by
  refine {
    limit := ?_
    plan := h.plan
    row := ⟨a, h.row⟩
    organization := ⟨a.orgId, h.row.orgId, h.organization⟩
    logged := h.logged }
  rw [createAccount, execute_rateLimited ⟨5, by decide⟩ (by decide)
    fun _ _ => execute_throw_ne_ok _] at hexec
  obtain ⟨row, htake, htokens, -⟩ := hexec
  exact (admits_iff _ _ ctx db (by decide)).2 ⟨row, htake, htokens⟩

end EnterpriseSystem
