import EnterpriseSystem.Database.Finance

/-!
# What a successful call does

One inversion lemma for each function of `Finance.lean`: when the call goes
through, which checks it has passed and which rows it has written.  Everything
proved about runs of these calls starts from them, and none of the functions is
unfolded again.

* `IsPosting` — one entry of the ledger with the balance it moves.
* `IsTransfer` — a transfer: the row it inserts into `transactions` and its one
  or two postings.
* `processTransaction_ok` — a call returns an existing row or makes a transfer.
* `createAccount_ok` — a call opens one account without money in it (`IsOpening`).
* `RpcCall.step_cases` — what any call does to the database.
-/

namespace EnterpriseSystem

open Relational Concurrency

/-- The same tables, up to the logs and the rate limits. -/
def Db.SameBooks (db db' : Db) : Prop :=
  ∃ auditLog securityEvents rateLimits, db' = { db with auditLog, securityEvents, rateLimits }

namespace Db.SameBooks

variable {db db' db'' : Db}

theorem refl (db : Db) : db.SameBooks db := ⟨_, _, _, rfl⟩

theorem trans (h : db.SameBooks db') (h' : db'.SameBooks db'') : db.SameBooks db'' := by
  obtain ⟨_, _, _, rfl⟩ := h
  obtain ⟨_, _, _, rfl⟩ := h'
  exact ⟨_, _, _, rfl⟩

/-- Writing the same row keeps them the same. -/
theorem apply (h : db.SameBooks db') (w : Write) : (db.apply w).SameBooks (db'.apply w) := by
  obtain ⟨_, _, _, rfl⟩ := h
  cases w <;> exact ⟨_, _, _, rfl⟩

theorem of_quiet {α : Type} {p : Rpc α} (hp : p.Quiet) {a : α} (h : p.exec db = .ok (a, db')) :
    db.SameBooks db' := execute_quiet hp h

theorem accounts (h : db.SameBooks db') : db'.accounts = db.accounts := by
  obtain ⟨_, _, _, rfl⟩ := h
  rfl

theorem transactions (h : db.SameBooks db') : db'.transactions = db.transactions := by
  obtain ⟨_, _, _, rfl⟩ := h
  rfl

theorem ledgerEntries (h : db.SameBooks db') : db'.ledgerEntries = db.ledgerEntries := by
  obtain ⟨_, _, _, rfl⟩ := h
  rfl

theorem organizations (h : db.SameBooks db') : db'.organizations = db.organizations := by
  obtain ⟨_, _, _, rfl⟩ := h
  rfl

theorem organizationMembers (h : db.SameBooks db') :
    db'.organizationMembers = db.organizationMembers := by
  obtain ⟨_, _, _, rfl⟩ := h
  rfl

end Db.SameBooks

/-! ## Columns -/

theorem storeMoney_ok {x : Option Numeric} {m : Money} :
    storeMoney x = .ok (some m) ↔ ∃ q, x = some q ∧ Fixed.store 19 4 q = some m := by
  cases x with
  | none => simp [storeMoney]
  | some q =>
    cases hs : Fixed.store 19 4 q <;> simp [storeMoney, hs]

/-- Storing a value into the column it has just been read from changes nothing. -/
theorem exists_units_of_inBalanceRange {m : Money} (h : InBalanceRange m) :
    ∃ n hn, m = .units n hn := by
  cases m with
  | nan => simp [InBalanceRange, Fixed.toNumeric, Numeric.le, Numeric.lt] at h
  | units n hn => exact ⟨n, hn, rfl⟩

/-! ## Balances -/

/-- **An update of a balance** moves the balance of the account it names, which
stays in range and, except on a credit account, does not go below zero. -/
theorem updateBalance_ok {ctx : Context} {site : ℕ} {id : Option Uuid} {f : Numeric → Numeric}
    {db db' : Db} {b : Option Money} (h : (updateBalance ctx site id f).exec db = .ok (b, db')) :
    (accountRow id db = none ∧ b = none ∧ db.SameBooks db') ∨
    ∃ a balance, accountRow id db = some a ∧ b = some balance.1 ∧
      Fixed.store 19 4 (f a.balance.1.toNumeric) = some balance.1 ∧
      (a.type ≠ .credit → balance.1.toNumeric.lt (.finite 0) = false) ∧
      (db.apply (.account { a with balance, updatedAt := ctx.now })).SameBooks db' := by
  rw [updateBalance, execute_bind_eq_ok] at h
  obtain ⟨row, db₁, hlock, h⟩ := h
  rw [execute_statement_eq_ok] at hlock
  obtain ⟨ws, hrow, rfl⟩ := hlock
  cases hr : accountRow id db with
  | none =>
    simp only [hr] at hrow
    cases hrow
    rw [execute_bind_eq_ok] at h
    obtain ⟨_, db₂, hbulk, h⟩ := h
    cases h
    exact Or.inl ⟨rfl, rfl, .of_quiet (quiet_detectBulkOperation _ _ _ _) hbulk⟩
  | some a =>
    simp only [hr] at hrow
    obtain ⟨stored, hstore, hrow⟩ := bind_eq_ok.1 hrow
    obtain ⟨balance, hbalance, hrow⟩ := bind_eq_ok.1 hrow
    cases hrow
    rw [notNull_ok] at hbalance
    subst hbalance
    obtain ⟨_, hq, hstore⟩ := storeMoney_ok.1 hstore
    cases hq
    rw [view_nil] at h
    rw [execute_bind_eq_ok] at h
    obtain ⟨_, db₂, htrigger, h⟩ := h
    rw [execute_bind_eq_ok] at h
    obtain ⟨checked, db₃, hcheck, h⟩ := h
    rw [execute_evaluate_eq_ok] at hcheck
    obtain ⟨hchecked, rfl⟩ := hcheck
    obtain rfl := check_ok.1 hchecked
    rw [execute_bind_eq_ok] at h
    obtain ⟨_, db₄, hupdate, h⟩ := h
    rw [execute_statement_eq_ok] at hupdate
    obtain ⟨_, hwrite, rfl⟩ := hupdate
    cases hwrite
    rw [execute_bind_eq_ok] at h
    obtain ⟨_, db₅, hbulk, h⟩ := h
    cases h
    -- the trigger has passed the new balance and written at most an audit row
    rw [validateBalance, execute_bind_eq_ok] at htrigger
    obtain ⟨_, db₆, hraise, haudit⟩ := htrigger
    rw [execute_onlyIf_throw_eq_ok] at hraise
    obtain ⟨hraise, rfl⟩ := hraise
    have haudit := Db.SameBooks.of_quiet (Call.Within.onlyIf fun _ => Call.Within.bind
      (quiet_writeAuditLog _ _ _ _ _ _ _) fun _ => Call.within_pure _) haudit
    have hbulk := Db.SameBooks.of_quiet (quiet_detectBulkOperation _ _ _ _) hbulk
    refine Or.inr ⟨a, checked, rfl, rfl, hstore, ?_, ?_⟩
    · intro hcredit
      simpa [hcredit] using hraise
    · exact (haudit.apply _).trans hbulk

/-! ## The inserted rows -/

/-- The columns of a row `process_transaction` has inserted into `transactions`. -/
structure IsNewTransaction (ctx : Context) (args : TransactionArgs) (t : Transaction) : Prop where
  id : t.id = ctx.uuid 0
  orgId : args.orgId = some t.orgId
  type : args.type = some t.type
  amount : ∃ x, args.amount = some x ∧ Fixed.store 19 4 x = some t.amount.1
  currency : t.currency = "USD"
  sourceAccountId : t.sourceAccountId = args.sourceAccount
  destAccountId : t.destAccountId = args.destAccount
  idempotencyKey : t.idempotencyKey = args.idempotencyKey
  metadata : args.metadata = some t.metadata.1
  failedAt : t.failedAt = none

theorem newTransaction_ok {ctx : Context} {uid : Uuid} {args : TransactionArgs} {t : Transaction}
    (h : newTransaction ctx uid (ctx.uuid 0) args = .ok t) : IsNewTransaction ctx args t := by
  obtain ⟨amount₀, hstore, h⟩ := bind_eq_ok.1 h
  obtain ⟨orgId, horg, h⟩ := bind_eq_ok.1 h
  obtain ⟨type, htype, h⟩ := bind_eq_ok.1 h
  obtain ⟨amount₁, hamount, h⟩ := bind_eq_ok.1 h
  obtain ⟨metadata₁, hmetadata, h⟩ := bind_eq_ok.1 h
  obtain ⟨amount, hpos, h⟩ := bind_eq_ok.1 h
  obtain ⟨accounts, haccounts, h⟩ := bind_eq_ok.1 h
  obtain ⟨metadata, hsafe, h⟩ := bind_eq_ok.1 h
  cases h
  rw [notNull_ok] at horg htype hamount hmetadata
  rw [check_ok] at hpos haccounts hsafe
  subst hamount hpos hsafe
  exact {
    id := rfl
    orgId := horg
    type := htype
    amount := storeMoney_ok.1 hstore
    currency := rfl
    sourceAccountId := congrArg Prod.fst haccounts.symm
    destAccountId := congrArg Prod.snd haccounts.symm
    idempotencyKey := rfl
    metadata := hmetadata
    failedAt := rfl }

theorem keyTaken_eq_false_iff {key : Option String} {db : Db} :
    keyTaken key db = false ↔
      ∀ k, key = some k → ∀ t ∈ db.transactions, t.idempotencyKey ≠ some k := by
  cases key with
  | none => simp [keyTaken]
  | some k =>
    simp only [keyTaken, Option.any_some, List.any_eq_false, decide_eq_true_eq, Option.some.injEq,
      forall_eq']
    rfl

/-- **An insertion into `transactions`** has found its identifier and its key
unused and its organization there. -/
theorem insertTransaction_ok {ctx : Context} {args : TransactionArgs} {db db' : Db}
    {t : Transaction} (h : (insertTransaction ctx args).exec db = .ok (t, db')) :
    IsNewTransaction ctx args t ∧ db.transactions.get? t.id = none ∧
      (∀ k, t.idempotencyKey = some k → ∀ t' ∈ db.transactions, t'.idempotencyKey ≠ some k) ∧
      db.organizations.contains t.orgId = true ∧ (db.apply (.transaction t)).SameBooks db' := by
  rw [insertTransaction, execute_bind_eq_ok] at h
  obtain ⟨uid, db₁, huid, h⟩ := h
  rw [execute_evaluate_eq_ok] at huid
  obtain ⟨-, rfl⟩ := huid
  rw [execute_bind_eq_ok] at h
  obtain ⟨t', db₂, hinsert, h⟩ := h
  rw [execute_bind_eq_ok] at h
  obtain ⟨_, db₃, hbulk, h⟩ := h
  cases h
  rw [execute_statement_eq_ok] at hinsert
  obtain ⟨ws, hinsert, rfl⟩ := hinsert
  obtain ⟨t', hnew, hinsert⟩ := bind_eq_ok.1 hinsert
  split at hinsert
  · cases hinsert
  rename_i hid
  split at hinsert
  · cases hinsert
  rename_i hkey
  split at hinsert
  · cases hinsert
  rename_i horg
  split at hinsert
  · cases hinsert
  split at hinsert
  · cases hinsert
  cases hinsert
  refine ⟨newTransaction_ok hnew,
    Table.contains_eq_false_iff.1 (Bool.eq_false_of_not_eq_true hid), ?_, not_not.1 horg, ?_⟩
  · exact keyTaken_eq_false_iff.1 (Bool.eq_false_of_not_eq_true hkey)
  · exact .of_quiet (quiet_detectBulkOperation _ _ _ _) hbulk

/-- The columns of a row `process_transaction` has inserted into `ledger_entries`. -/
structure IsNewEntry (args : TransactionArgs) (transactionId : Uuid) (accountId : Option Uuid)
    (entryType : EntryType) (balanceAfter : Option Money) (e : LedgerEntry) : Prop where
  orgId : args.orgId = some e.orgId
  transactionId : e.transactionId = transactionId
  accountId : accountId = some e.accountId
  entryType : e.entryType = entryType
  amount : ∃ x, args.amount = some x ∧ Fixed.store 19 4 x = some e.amount.1
  currency : e.currency = "USD"
  balanceAfter : balanceAfter = some e.balanceAfter

theorem newLedgerEntry_ok {ctx : Context} {uid id : Uuid} {args : TransactionArgs}
    {transactionId : Uuid} {accountId : Option Uuid} {entryType : EntryType}
    {balanceAfter : Option Money} {e : LedgerEntry}
    (h : newLedgerEntry ctx uid id args transactionId accountId entryType balanceAfter = .ok e) :
    IsNewEntry args transactionId accountId entryType balanceAfter e := by
  obtain ⟨amount₀, hstore, h⟩ := bind_eq_ok.1 h
  obtain ⟨orgId, horg, h⟩ := bind_eq_ok.1 h
  obtain ⟨accountId, haccount, h⟩ := bind_eq_ok.1 h
  obtain ⟨amount₁, hamount, h⟩ := bind_eq_ok.1 h
  obtain ⟨balance, hbalance, h⟩ := bind_eq_ok.1 h
  obtain ⟨amount, hpos, h⟩ := bind_eq_ok.1 h
  cases h
  rw [notNull_ok] at horg haccount hamount hbalance
  rw [check_ok] at hpos
  subst hamount hpos
  exact {
    orgId := horg
    transactionId := rfl
    accountId := haccount
    entryType := rfl
    amount := storeMoney_ok.1 hstore
    currency := rfl
    balanceAfter := hbalance }

/-- The row has the identifier generated for it, and the time its call started. -/
theorem newLedgerEntry_stamp {ctx : Context} {uid id : Uuid} {args : TransactionArgs}
    {transactionId : Uuid} {accountId : Option Uuid} {entryType : EntryType}
    {balanceAfter : Option Money} {e : LedgerEntry}
    (h : newLedgerEntry ctx uid id args transactionId accountId entryType balanceAfter = .ok e) :
    e.id = id ∧ e.createdAt = ctx.now := by
  obtain ⟨_, -, h⟩ := bind_eq_ok.1 h
  obtain ⟨_, -, h⟩ := bind_eq_ok.1 h
  obtain ⟨_, -, h⟩ := bind_eq_ok.1 h
  obtain ⟨_, -, h⟩ := bind_eq_ok.1 h
  obtain ⟨_, -, h⟩ := bind_eq_ok.1 h
  obtain ⟨_, -, h⟩ := bind_eq_ok.1 h
  cases h
  exact ⟨rfl, rfl⟩

/-- An insertion into `ledger_entries` has found its identifier unused. -/
theorem insertLedgerEntry_ok {ctx : Context} {id : Uuid} {args : TransactionArgs}
    {transactionId : Uuid} {accountId : Option Uuid} {entryType : EntryType}
    {balanceAfter : Option Money} {db db' : Db} {u : Unit}
    (h : (insertLedgerEntry ctx id args transactionId accountId entryType balanceAfter).exec db =
      .ok (u, db')) :
    ∃ e, IsNewEntry args transactionId accountId entryType balanceAfter e ∧
      db.ledgerEntries.get? e.id = none ∧
      db' = db.apply (.ledgerEntry e) := by
  rw [insertLedgerEntry, execute_bind_eq_ok] at h
  obtain ⟨uid, db₁, huid, h⟩ := h
  rw [execute_evaluate_eq_ok] at huid
  obtain ⟨-, rfl⟩ := huid
  rw [execute_statement_eq_ok] at h
  obtain ⟨ws, hinsert, rfl⟩ := h
  obtain ⟨e, hnew, hinsert⟩ := bind_eq_ok.1 hinsert
  split at hinsert
  · cases hinsert
  rename_i hid
  split at hinsert
  · cases hinsert
  split at hinsert
  · cases hinsert
  cases hinsert
  exact ⟨e, newLedgerEntry_ok hnew,
    Table.contains_eq_false_iff.1 (Bool.eq_false_of_not_eq_true hid), rfl⟩

/-! ## Postings and transfers -/

/-- The tables after a posting: an account with its new balance and the entry
that says so. -/
def Db.post (db : Db) (a : Account) (e : LedgerEntry) : Db :=
  (db.apply (.account a)).apply (.ledgerEntry e)

theorem Db.SameBooks.post {db db' : Db} (h : db.SameBooks db') (a : Account) (e : LedgerEntry) :
    (db.post a e).SameBooks (db'.post a e) :=
  (h.apply (.account a)).apply (.ledgerEntry e)

/-- `e` is a new entry of the transaction `transactionId`, and `new` the account
it is posted to after its balance has moved. -/
structure IsPosting (args : TransactionArgs) (transactionId : Uuid) (accountId : Option Uuid)
    (entryType : EntryType) (amount : Numeric) (db : Db) (old new : Account) (e : LedgerEntry) :
    Prop where
  row : accountRow accountId db = some old
  balance : Fixed.store 19 4 (entryType.move old.balance.1.toNumeric amount) = some new.balance.1
  solvent : old.type ≠ .credit → new.balance.1.toNumeric.lt (.finite 0) = false
  frame : ∃ now, new = { old with balance := new.balance, updatedAt := now }
  entry : IsNewEntry args transactionId accountId entryType (some new.balance.1) e
  fresh : db.ledgerEntries.get? e.id = none

theorem postEntry_ok {ctx : Context} {site : ℕ} {args : TransactionArgs} {transactionId : Uuid}
    {accountId : Option Uuid} {entryType : EntryType} {amount : Numeric} {db db' : Db} {u : Unit}
    (h : (postEntry ctx site args transactionId accountId entryType amount).exec db =
      .ok (u, db')) :
    ∃ old new e, IsPosting args transactionId accountId entryType amount db old new e ∧
      (db.post new e).SameBooks db' := by
  rw [postEntry, execute_bind_eq_ok] at h
  obtain ⟨balance, db₁, hupdate, hinsert⟩ := h
  obtain ⟨e, he, hfresh, rfl⟩ := insertLedgerEntry_ok hinsert
  rcases updateBalance_ok hupdate with ⟨-, rfl, -⟩ | ⟨a, b, hrow, rfl, hstore, hsolvent, hdb₁⟩
  · exact nomatch he.balanceAfter
  · exact ⟨a, _, e, {
      row := hrow
      balance := hstore
      solvent := hsolvent
      frame := ⟨_, rfl⟩
      entry := he
      fresh := hdb₁.ledgerEntries ▸ hfresh }, hdb₁.apply _⟩

/-- What the checks of `process_transaction` have established when they pass. -/
structure IsCovered (args : TransactionArgs) (db : Db) (source : Account) : Prop where
  sourceActive : activeAccount args.orgId args.sourceAccount db = some source
  destActive : args.destAccount = none ∨ ∃ a, activeAccount args.orgId args.destAccount db = some a
  funds : source.type ≠ .credit → ∀ x, args.amount = some x →
    source.balance.1.toNumeric.lt x = false

theorem activeAccount_eq_some {orgId id : Option Uuid} {db : Db} {a : Account} :
    activeAccount orgId id db = some a ↔
      accountRow id db = some a ∧ orgId = some a.orgId ∧ a.status = .active := by
  simp [activeAccount, Option.filter_eq_some_iff]

/-- The checks look at the accounts only. -/
theorem IsCovered.congr {args : TransactionArgs} {db db' : Db} {source : Account}
    (h : IsCovered args db source) (haccounts : db'.accounts = db.accounts) :
    IsCovered args db' source := by
  have hactive : ∀ o i, activeAccount o i db' = activeAccount o i db := by
    intro o i
    rw [activeAccount, accountRow, haccounts, activeAccount, accountRow]
  refine ⟨(hactive _ _).trans h.sourceActive, ?_, h.funds⟩
  rw [hactive]
  exact h.destActive

theorem checkTransfer_ok {args : TransactionArgs} {db db' : Db} {u : Unit}
    (h : (checkTransfer args).exec db = .ok (u, db')) :
    db' = db ∧ ∃ source, IsCovered args db source := by
  rw [checkTransfer, execute_bind_eq_ok] at h
  obtain ⟨source, db₁, hsource, h⟩ := h
  rw [execute_select] at hsource
  cases hsource
  rw [execute_bind_eq_ok] at h
  obtain ⟨_, db₁, hfound, h⟩ := h
  rw [execute_onlyIf_throw_eq_ok] at hfound
  obtain ⟨hfound, rfl⟩ := hfound
  rw [execute_bind_eq_ok] at h
  obtain ⟨dest, db₁, hdest, h⟩ := h
  rw [execute_select] at hdest
  cases hdest
  rw [execute_bind_eq_ok] at h
  obtain ⟨_, db₁, hdest, h⟩ := h
  rw [execute_onlyIf_throw_eq_ok] at hdest
  obtain ⟨hdest, rfl⟩ := hdest
  rw [execute_bind_eq_ok] at h
  obtain ⟨locked, db₁, hlocked, h⟩ := h
  rw [execute_statement_eq_ok] at hlocked
  obtain ⟨ws, hlocked, rfl⟩ := hlocked
  cases hlocked
  rw [execute_onlyIf_throw_eq_ok] at h
  obtain ⟨hfunds, rfl⟩ := h
  rw [Option.isNone_iff_eq_none, ← ne_eq, Option.ne_none_iff_exists'] at hfound
  obtain ⟨a, ha⟩ := hfound
  refine ⟨rfl, a, ha, ?_, ?_⟩
  · by_cases hnone : args.destAccount = none
    · exact Or.inl hnone
    · refine Or.inr (Option.ne_none_iff_exists'.1 fun hc => hdest ⟨hnone, ?_⟩)
      rw [hc]
      rfl
  · intro hcredit x hx
    have hrow := (activeAccount_eq_some.1 ha).1
    rw [hrow, hx] at hfunds
    simpa [sqlLt, hcredit] using hfunds

/-- The tables after a transfer: the new row of `transactions`, the posting to
the source and, when there is a destination, the posting to it. -/
structure IsTransfer (ctx : Context) (args : TransactionArgs) (t : Transaction) (db db' : Db) :
    Prop where
  row : IsNewTransaction ctx args t
  fresh : db.transactions.get? t.id = none
  key : ∀ k, t.idempotencyKey = some k → ∀ t' ∈ db.transactions, t'.idempotencyKey ≠ some k
  organization : db.organizations.contains t.orgId = true
  covered : ∃ source, IsCovered args db source
  logged : ctx.server.resolvesUnqualified = true
  postings : ∃ amount source source' debit, args.amount = some amount ∧
    IsPosting args t.id args.sourceAccount .debit amount db source source' debit ∧
    let db₁ := (db.apply (.transaction t)).post source' debit
    (args.destAccount = none ∧ db₁.SameBooks db') ∨
    ∃ dest dest' credit,
      IsPosting args t.id args.destAccount .credit amount db₁ dest dest' credit ∧
      (db₁.post dest' credit).SameBooks db'

/-- Postings do not look at the logs, the rate limits and the transactions. -/
theorem IsPosting.congr {args : TransactionArgs} {transactionId : Uuid} {accountId : Option Uuid}
    {entryType : EntryType} {amount : Numeric} {db db' : Db} {old new : Account}
    {e : LedgerEntry} (h : IsPosting args transactionId accountId entryType amount db old new e)
    (haccounts : db'.accounts = db.accounts) (hentries : db'.ledgerEntries = db.ledgerEntries) :
    IsPosting args transactionId accountId entryType amount db' old new e where
  row := by
    rw [accountRow, haccounts]
    exact h.row
  balance := h.balance
  solvent := h.solvent
  frame := h.frame
  entry := h.entry
  fresh := hentries ▸ h.fresh

namespace IsPosting

variable {args : TransactionArgs} {transactionId : Uuid} {accountId : Option Uuid}
  {entryType : EntryType} {amount : Numeric} {db : Db} {old new : Account} {e : LedgerEntry}

theorem new_id (h : IsPosting args transactionId accountId entryType amount db old new e) :
    new.id = old.id := by
  obtain ⟨now, hnew⟩ := h.frame
  rw [hnew]

theorem get?_old (h : IsPosting args transactionId accountId entryType amount db old new e) :
    db.accounts.get? old.id = some old := by
  obtain ⟨i, -, hrow⟩ := Option.bind_eq_some_iff.1 h.row
  rw [Table.key_of_get? hrow]
  exact hrow

theorem accountId_eq (h : IsPosting args transactionId accountId entryType amount db old new e) :
    accountId = some new.id := by
  obtain ⟨i, hi, hrow⟩ := Option.bind_eq_some_iff.1 h.row
  rw [hi, h.new_id, Table.key_of_get? hrow]

/-- The new entry is the last row of the ledger. -/
theorem rows (h : IsPosting args transactionId accountId entryType amount db old new e) :
    (db.post new e).ledgerEntries.rows = db.ledgerEntries.rows ++ [e] :=
  Table.rows_put_of_get?_none h.fresh

theorem mem_accounts (_ : IsPosting args transactionId accountId entryType amount db old new e)
    {a : Account} :
    a ∈ (db.post new e).accounts ↔ a = new ∨ (a ∈ db.accounts ∧ a.id ≠ new.id) :=
  Table.mem_put_iff

theorem mem_entries (h : IsPosting args transactionId accountId entryType amount db old new e)
    {e' : LedgerEntry} :
    e' ∈ (db.post new e).ledgerEntries ↔ e' ∈ db.ledgerEntries ∨ e' = e := by
  rw [Table.mem_def, h.rows, List.mem_append, List.mem_singleton]
  rfl

end IsPosting

/-- Only one account is looked up differently after it has been written. -/
theorem accountRow_put_of_ne {id : Option Uuid} {db : Db} {a : Account} (h : id ≠ some a.id) :
    accountRow id (db.apply (.account a)) = accountRow id db := by
  cases id with
  | none => rfl
  | some i => exact Table.get?_put_of_ne _ fun hc => h (congrArg some hc.symm)

theorem postTransfer_ok {ctx : Context} {args : TransactionArgs} {db db' : Db} {t : Transaction}
    {source : Account} (hcovered : IsCovered args db source)
    (h : (postTransfer ctx args).exec db = .ok (t, db')) : IsTransfer ctx args t db db' := by
  rw [postTransfer, execute_bind_eq_ok] at h
  obtain ⟨t', db₁, hinsert, h⟩ := h
  obtain ⟨hrow, hfresh, hkey, horg, hdb₁⟩ := insertTransaction_ok hinsert
  rw [execute_bind_eq_ok] at h
  obtain ⟨amount, db₂, hamount, h⟩ := h
  rw [execute_evaluate_eq_ok, notNull_ok] at hamount
  obtain ⟨hamount, rfl⟩ := hamount
  rw [execute_bind_eq_ok] at h
  obtain ⟨_, db₃, hpost, h⟩ := h
  obtain ⟨source, source', debit, hdebit, hdb₃⟩ := postEntry_ok hpost
  rw [execute_bind_eq_ok] at h
  obtain ⟨_, db₄, hpost', h⟩ := h
  rw [execute_bind_eq_ok] at h
  obtain ⟨_, db₅, haudit, h⟩ := h
  cases h
  have hlogged := resolves_of_writeAuditLog haudit
  have haudit := Db.SameBooks.of_quiet (quiet_writeAuditLog _ _ _ _ _ _ _) haudit
  have hdb₃' := (hdb₁.post source' debit).trans hdb₃
  refine ⟨hrow, hfresh, hkey, horg, ⟨_, hcovered⟩, hlogged, amount, source, source', debit, hamount,
    hdebit.congr hdb₁.accounts.symm hdb₁.ledgerEntries.symm, ?_⟩
  rw [execute_onlyIf] at hpost'
  split at hpost'
  · obtain ⟨dest, dest', credit, hcredit, hdb₄⟩ := postEntry_ok hpost'
    exact Or.inr ⟨dest, dest', credit, hcredit.congr hdb₃'.accounts.symm hdb₃'.ledgerEntries.symm,
      ((hdb₃'.post dest' credit).trans hdb₄).trans haudit⟩
  · rename_i hnone
    cases hpost'
    exact Or.inl ⟨not_ne_iff.1 hnone, hdb₃'.trans haudit⟩

/-- A transfer does not depend on the logs and the rate limits. -/
theorem IsTransfer.of_sameBooks {ctx : Context} {args : TransactionArgs} {t : Transaction}
    {db db₀ db' : Db} (hdb : db.SameBooks db₀) (h : IsTransfer ctx args t db₀ db') :
    IsTransfer ctx args t db db' := by
  obtain ⟨amount, source, source', debit, hamount, hdebit, hrest⟩ := h.postings
  obtain ⟨covering, hcovering⟩ := h.covered
  have hdb₁ := (hdb.apply (.transaction t)).post source' debit
  refine ⟨h.row, hdb.transactions ▸ h.fresh, hdb.transactions ▸ h.key,
    hdb.organizations ▸ h.organization, ⟨covering, hcovering.congr hdb.accounts.symm⟩, h.logged,
    amount, source, source', debit, hamount,
    hdebit.congr hdb.accounts.symm hdb.ledgerEntries.symm, ?_⟩
  rcases hrest with ⟨hnone, hdb'⟩ | ⟨dest, dest', credit, hcredit, hdb'⟩
  · exact Or.inl ⟨hnone, hdb₁.trans hdb'⟩
  · exact Or.inr ⟨dest, dest', credit, hcredit.congr hdb₁.accounts.symm hdb₁.ledgerEntries.symm,
      (hdb₁.post dest' credit).trans hdb'⟩

theorem IsTransfer.transactions {ctx : Context} {args : TransactionArgs} {t : Transaction}
    {db db' : Db} (h : IsTransfer ctx args t db db') :
    db'.transactions = db.transactions.put t := by
  obtain ⟨_, _, _, _, -, -, ⟨-, hdb'⟩ | ⟨_, _, _, -, hdb'⟩⟩ := h.postings
  · exact hdb'.transactions
  · exact hdb'.transactions

/-- The source of a transfer is not its destination. -/
theorem IsNewTransaction.dest_ne {ctx : Context} {args : TransactionArgs} {t : Transaction}
    (h : IsNewTransaction ctx args t) {i : Uuid} (hsource : args.sourceAccount = some i) :
    args.destAccount ≠ some i := by
  intro hdest
  have hdifferent := t.differentAccounts
  rw [h.sourceAccountId, h.destAccountId, hsource, hdest] at hdifferent
  rcases hdifferent with hne | hne | hne
  · cases hne
  · cases hne
  · exact hne rfl

/-- The destination of a transfer is not touched by its first posting. -/
theorem IsNewTransaction.accountRow_dest {ctx : Context} {args : TransactionArgs} {t : Transaction}
    (h : IsNewTransaction ctx args t) {db : Db} {source' : Account} {debit : LedgerEntry}
    (hsource : args.sourceAccount = some source'.id) :
    accountRow args.destAccount ((db.apply (.transaction t)).post source' debit) =
      accountRow args.destAccount db :=
  accountRow_put_of_ne (a := source') (h.dest_ne hsource)

/-- **What a successful `process_transaction` does**: it returns a row all of
whose columns are set, or it makes a transfer. -/
theorem processTransaction_ok {ctx : Context} {args : TransactionArgs} {db db' : Db}
    {t : Transaction} (h : (processTransaction ctx args).exec db = .ok (t, db')) :
    (existingTransaction args db = some t ∧ t.IsNotNull ∧ db.SameBooks db') ∨
      IsTransfer ctx args t db db' := by
  rw [processTransaction, execute_bind_eq_ok] at h
  obtain ⟨allowed, db₁, hlimit, h⟩ := h
  have hdb₁ := Db.SameBooks.of_quiet (quiet_checkRateLimit _ _ _ _) hlimit
  rw [execute_bind_eq_ok] at h
  obtain ⟨_, db₂, hallowed, h⟩ := h
  rw [execute_onlyIf_throw_eq_ok] at hallowed
  obtain ⟨-, rfl⟩ := hallowed
  rw [execute_bind_eq_ok] at h
  obtain ⟨existing, db₃, hexisting, h⟩ := h
  rw [execute_select] at hexisting
  cases hexisting
  have hsame : existingTransaction args db₂ = existingTransaction args db := by
    unfold existingTransaction
    rw [hdb₁.transactions]
  split at h
  · rename_i t' hreplay
    cases h
    obtain ⟨ht, hnull⟩ := Option.filter_eq_some_iff.1 hreplay
    exact Or.inl ⟨hsame ▸ ht, of_decide_eq_true hnull, hdb₁⟩
  · rw [execute_bind_eq_ok] at h
    obtain ⟨_, db₃, hcheck, h⟩ := h
    obtain ⟨rfl, source, hcovered⟩ := checkTransfer_ok hcheck
    exact Or.inr (.of_sameBooks hdb₁ (postTransfer_ok hcovered h))

/-! ## Accounts -/

/-- The columns of an account `create_account` has inserted. -/
structure IsNewAccount (ctx : Context) (args : AccountArgs) (a : Account) : Prop where
  id : a.id = ctx.uuid 0
  orgId : authOrgId ctx = some a.orgId
  name : args.name = some a.name.1
  type : args.type = some a.type
  currency : args.currency = some a.currency.1
  metadata : args.metadata = some a.metadata.1
  balance : a.balance.1 = Fixed.zero
  status : a.status = .active

theorem newAccount_ok {ctx : Context} {uid : Uuid} {args : AccountArgs} {a : Account}
    (h : newAccount ctx uid (ctx.uuid 0) args = .ok a) : IsNewAccount ctx args a := by
  obtain ⟨orgId, horg, h⟩ := bind_eq_ok.1 h
  obtain ⟨name₁, hname₁, h⟩ := bind_eq_ok.1 h
  obtain ⟨type, htype, h⟩ := bind_eq_ok.1 h
  obtain ⟨currency₁, hcurrency₁, h⟩ := bind_eq_ok.1 h
  obtain ⟨metadata₁, hmetadata, h⟩ := bind_eq_ok.1 h
  obtain ⟨metadata, hsafe, h⟩ := bind_eq_ok.1 h
  obtain ⟨balance, hbalance, h⟩ := bind_eq_ok.1 h
  obtain ⟨currency, hcurrency, h⟩ := bind_eq_ok.1 h
  obtain ⟨name, hname, h⟩ := bind_eq_ok.1 h
  cases h
  rw [notNull_ok] at horg hname₁ htype hcurrency₁ hmetadata
  rw [check_ok] at hsafe hbalance hcurrency hname
  subst hsafe hcurrency hname
  exact {
    id := rfl
    orgId := horg
    name := hname₁
    type := htype
    currency := hcurrency₁
    metadata := hmetadata
    balance := hbalance.symm
    status := rfl }

/-- The tables after an account has been created: one account without money in
it, under an identifier that was not in use, in the caller's organization. -/
structure IsOpening (ctx : Context) (args : AccountArgs) (a : Account) (db db' : Db) : Prop where
  row : IsNewAccount ctx args a
  fresh : db.accounts.get? a.id = none
  organization : db.organizations.contains a.orgId = true
  plan : ¬ ((sqlEq (orgPlan ctx db) (some .free)).Holds ∧ 3 ≤ accountCount ctx db)
  logged : ctx.server.resolvesUnqualified = true
  frame : (db.apply (.account a)).SameBooks db'

/-- **What a successful `create_account` does**: it opens an account. -/
theorem createAccount_ok {ctx : Context} {args : AccountArgs} {db db' : Db} {a : Account}
    (h : (createAccount ctx args).exec db = .ok (a, db')) : IsOpening ctx args a db db' := by
  rw [createAccount, execute_bind_eq_ok] at h
  obtain ⟨allowed, db₁, hlimit, h⟩ := h
  have hdb₁ := Db.SameBooks.of_quiet (quiet_checkRateLimit _ _ _ _) hlimit
  rw [execute_bind_eq_ok] at h
  obtain ⟨_, db₂, hallowed, h⟩ := h
  rw [execute_onlyIf_throw_eq_ok] at hallowed
  obtain ⟨-, rfl⟩ := hallowed
  rw [execute_bind_eq_ok] at h
  obtain ⟨plan, db₃, hplan, h⟩ := h
  rw [execute_select] at hplan
  cases hplan
  rw [execute_bind_eq_ok] at h
  obtain ⟨count, db₃, hcount, h⟩ := h
  rw [execute_select] at hcount
  cases hcount
  rw [execute_bind_eq_ok] at h
  obtain ⟨_, db₃, hfree, h⟩ := h
  rw [execute_onlyIf_throw_eq_ok] at hfree
  obtain ⟨hplan, rfl⟩ := hfree
  rw [execute_bind_eq_ok] at h
  obtain ⟨a', db₄, hinsert, h⟩ := h
  rw [execute_bind_eq_ok] at h
  obtain ⟨_, db₅, haudit, h⟩ := h
  cases h
  have hlogged := resolves_of_writeAuditLog haudit
  have haudit := Db.SameBooks.of_quiet (quiet_writeAuditLog _ _ _ _ _ _ _) haudit
  rw [insertAccount, execute_bind_eq_ok] at hinsert
  obtain ⟨uid, db₆, huid, hinsert⟩ := hinsert
  rw [execute_evaluate_eq_ok] at huid
  obtain ⟨-, rfl⟩ := huid
  rw [execute_bind_eq_ok] at hinsert
  obtain ⟨a', db₇, hrow, hinsert⟩ := hinsert
  rw [execute_bind_eq_ok] at hinsert
  obtain ⟨_, db₈, hbulk, hinsert⟩ := hinsert
  cases hinsert
  rw [execute_statement_eq_ok] at hrow
  obtain ⟨ws, hrow, rfl⟩ := hrow
  obtain ⟨a', hnew, hrow⟩ := bind_eq_ok.1 hrow
  split at hrow
  · cases hrow
  rename_i hid
  split at hrow
  · cases hrow
  rename_i horg
  cases hrow
  have hbulk := Db.SameBooks.of_quiet (quiet_detectBulkOperation _ _ _ _) hbulk
  have hid := Table.contains_eq_false_iff.1 (Bool.eq_false_of_not_eq_true hid)
  rw [orgPlan, accountCount, hdb₁.accounts, hdb₁.organizations] at hplan
  exact {
    row := newAccount_ok hnew
    fresh := hdb₁.accounts ▸ hid
    organization := hdb₁.organizations ▸ not_not.1 horg
    plan := hplan
    logged := hlogged
    frame := ((hdb₁.apply (.account a)).trans hbulk).trans haudit }

/-! ## What stays -/

/-- The accounts that are there stay, with other balances at most. -/
def Db.KeepsAccounts (db db' : Db) : Prop :=
  ∀ i a, db.accounts.get? i = some a →
    ∃ balance updatedAt, db'.accounts.get? i = some { a with balance, updatedAt }

namespace Db.KeepsAccounts

variable {db db' db'' : Db}

theorem of_eq (h : db'.accounts = db.accounts) : db.KeepsAccounts db' := by
  intro i a ha
  rw [h]
  exact ⟨_, _, ha⟩

theorem trans (h : db.KeepsAccounts db') (h' : db'.KeepsAccounts db'') : db.KeepsAccounts db'' := by
  intro i a ha
  obtain ⟨_, _, ha'⟩ := h i a ha
  obtain ⟨balance, updatedAt, ha''⟩ := h' i _ ha'
  exact ⟨balance, updatedAt, ha''⟩

/-- What a lookup finds is found again. -/
theorem accountRow (h : db.KeepsAccounts db') {id : Option Uuid} {a : Account}
    (ha : accountRow id db = some a) :
    ∃ balance updatedAt, EnterpriseSystem.accountRow id db' =
      some { a with balance, updatedAt } := by
  obtain ⟨i, rfl, hrow⟩ := Option.bind_eq_some_iff.1 ha
  exact h i a hrow

end Db.KeepsAccounts

theorem IsOpening.keepsAccounts {ctx : Context} {args : AccountArgs} {a : Account} {db db' : Db}
    (h : IsOpening ctx args a db db') : db.KeepsAccounts db' := by
  intro i b hb
  have hne : a.id ≠ i := by
    rintro rfl
    rw [h.fresh] at hb
    cases hb
  rw [h.frame.accounts]
  exact ⟨_, _, (Table.get?_put_of_ne db.accounts hne).trans hb⟩

theorem IsPosting.keepsAccounts {args : TransactionArgs} {transactionId : Uuid}
    {accountId : Option Uuid} {entryType : EntryType} {amount : Numeric} {db : Db}
    {old new : Account} {e : LedgerEntry}
    (h : IsPosting args transactionId accountId entryType amount db old new e) :
    db.KeepsAccounts (db.post new e) := by
  intro i a ha
  have hget : (db.post new e).accounts.get? i = if new.id = i then some new else db.accounts.get? i :=
    Table.get?_put db.accounts new i
  rw [hget]
  split
  · rename_i hi
    obtain ⟨updatedAt, hnew⟩ := h.frame
    rw [← hi, h.new_id, h.get?_old] at ha
    cases ha
    exact ⟨new.balance, updatedAt, congrArg some hnew⟩
  · exact ⟨_, _, ha⟩

theorem IsTransfer.keepsAccounts {ctx : Context} {args : TransactionArgs} {t : Transaction}
    {db db' : Db} (h : IsTransfer ctx args t db db') : db.KeepsAccounts db' := by
  obtain ⟨amount, source, source', debit, -, hdebit, hrest⟩ := h.postings
  have hdebit' : IsPosting args t.id args.sourceAccount .debit amount
      (db.apply (.transaction t)) source source' debit := hdebit.congr rfl rfl
  have hfirst : db.KeepsAccounts ((db.apply (.transaction t)).post source' debit) :=
    (Db.KeepsAccounts.of_eq rfl).trans hdebit'.keepsAccounts
  rcases hrest with ⟨-, hdb'⟩ | ⟨dest, dest', credit, hcredit, hdb'⟩
  · exact hfirst.trans (.of_eq hdb'.accounts)
  · exact (hfirst.trans hcredit.keepsAccounts).trans (.of_eq hdb'.accounts)

/-- The transactions after a transfer. -/
theorem IsTransfer.mem_transactions {ctx : Context} {args : TransactionArgs} {t : Transaction}
    {db db' : Db} (h : IsTransfer ctx args t db db') {t' : Transaction} :
    t' ∈ db'.transactions ↔ t' = t ∨ t' ∈ db.transactions := by
  rw [h.transactions, Table.mem_put_iff]
  have hfresh := Table.get?_eq_none_iff.1 h.fresh
  constructor
  · rintro (rfl | ⟨ht', -⟩)
    · exact Or.inl rfl
    · exact Or.inr ht'
  · rintro (rfl | ht')
    · exact Or.inl rfl
    · exact Or.inr ⟨ht', hfresh t' ht'⟩

/-- The entries after a transfer are those before it and the new ones, which are
posted to the source or to the destination. -/
theorem IsTransfer.entry_cases {ctx : Context} {args : TransactionArgs} {t : Transaction}
    {db db' : Db} (h : IsTransfer ctx args t db db') {e : LedgerEntry}
    (he : e ∈ db'.ledgerEntries) :
    e ∈ db.ledgerEntries ∨ ∃ accountId entryType balance,
      (accountId = args.sourceAccount ∨ accountId = args.destAccount) ∧
        IsNewEntry args t.id accountId entryType balance e := by
  obtain ⟨amount, source, source', debit, -, hdebit, hrest⟩ := h.postings
  have hdebit' : IsPosting args t.id args.sourceAccount .debit amount
      (db.apply (.transaction t)) source source' debit := hdebit.congr rfl rfl
  have hfirst : ∀ {e}, e ∈ ((db.apply (.transaction t)).post source' debit).ledgerEntries →
      e ∈ db.ledgerEntries ∨ ∃ accountId entryType balance,
        (accountId = args.sourceAccount ∨ accountId = args.destAccount) ∧
          IsNewEntry args t.id accountId entryType balance e := by
    intro e he
    rcases hdebit'.mem_entries.1 he with he | rfl
    · exact Or.inl he
    · exact Or.inr ⟨_, _, _, Or.inl rfl, hdebit.entry⟩
  rcases hrest with ⟨-, hdb'⟩ | ⟨dest, dest', credit, hcredit, hdb'⟩
  · rw [hdb'.ledgerEntries] at he
    exact hfirst he
  · rw [hdb'.ledgerEntries] at he
    rcases hcredit.mem_entries.1 he with he | rfl
    · exact hfirst he
    · exact Or.inr ⟨_, _, _, Or.inr rfl, hcredit.entry⟩

/-- The accounts of a transfer are there, and belong to the organization of its
argument. -/
theorem IsCovered.account {args : TransactionArgs} {db : Db} {source : Account}
    (h : IsCovered args db source) {id : Option Uuid}
    (hid : id = args.sourceAccount ∨ id = args.destAccount) :
    id = none ∨ ∃ a, accountRow id db = some a ∧ args.orgId = some a.orgId := by
  rcases hid with rfl | rfl
  · obtain ⟨hrow, horg, -⟩ := activeAccount_eq_some.1 h.sourceActive
    exact Or.inr ⟨source, hrow, horg⟩
  · rcases h.destActive with hnone | ⟨a, ha⟩
    · exact Or.inl hnone
    · obtain ⟨hrow, horg, -⟩ := activeAccount_eq_some.1 ha
      exact Or.inr ⟨a, hrow, horg⟩

/-! ## What the insertions can write

Whatever they read, the insertions write a row of the shape described above and
the rows of the logs, and fail only with errors of the system. -/

theorem isSystem_of_newTransaction {ctx : Context} {uid id : Uuid} {args : TransactionArgs}
    {e : PgError} (h : newTransaction ctx uid id args = .error e) : e.IsSystem := by
  refine isSystem_of_bind h (fun _ => isSystem_of_storeMoney) fun _ _ h => ?_
  refine isSystem_of_bind h (fun _ => isSystem_of_notNull) fun _ _ h => ?_
  refine isSystem_of_bind h (fun _ => isSystem_of_notNull) fun _ _ h => ?_
  refine isSystem_of_bind h (fun _ => isSystem_of_notNull) fun _ _ h => ?_
  refine isSystem_of_bind h (fun _ => isSystem_of_notNull) fun _ _ h => ?_
  refine isSystem_of_bind h (fun _ => isSystem_of_check) fun _ _ h => ?_
  refine isSystem_of_bind h (fun _ => isSystem_of_check) fun _ _ h => ?_
  exact isSystem_of_bind h (fun _ => isSystem_of_check) fun _ _ h => nomatch h

theorem isSystem_of_newLedgerEntry {ctx : Context} {uid id : Uuid} {args : TransactionArgs}
    {transactionId : Uuid} {accountId : Option Uuid} {entryType : EntryType}
    {balanceAfter : Option Money} {e : PgError}
    (h : newLedgerEntry ctx uid id args transactionId accountId entryType balanceAfter = .error e) :
    e.IsSystem := by
  refine isSystem_of_bind h (fun _ => isSystem_of_storeMoney) fun _ _ h => ?_
  refine isSystem_of_bind h (fun _ => isSystem_of_notNull) fun _ _ h => ?_
  refine isSystem_of_bind h (fun _ => isSystem_of_notNull) fun _ _ h => ?_
  refine isSystem_of_bind h (fun _ => isSystem_of_notNull) fun _ _ h => ?_
  refine isSystem_of_bind h (fun _ => isSystem_of_notNull) fun _ _ h => ?_
  exact isSystem_of_bind h (fun _ => isSystem_of_check) fun _ _ h => nomatch h

theorem isSystem_of_newAccount {ctx : Context} {uid id : Uuid} {args : AccountArgs} {e : PgError}
    (h : newAccount ctx uid id args = .error e) : e.IsSystem := by
  refine isSystem_of_bind h (fun _ => isSystem_of_notNull) fun _ _ h => ?_
  refine isSystem_of_bind h (fun _ => isSystem_of_notNull) fun _ _ h => ?_
  refine isSystem_of_bind h (fun _ => isSystem_of_notNull) fun _ _ h => ?_
  refine isSystem_of_bind h (fun _ => isSystem_of_notNull) fun _ _ h => ?_
  refine isSystem_of_bind h (fun _ => isSystem_of_notNull) fun _ _ h => ?_
  refine isSystem_of_bind h (fun _ => isSystem_of_check) fun _ _ h => ?_
  refine isSystem_of_bind h (fun _ => isSystem_of_check) fun _ _ h => ?_
  refine isSystem_of_bind h (fun _ => isSystem_of_check) fun _ _ h => ?_
  exact isSystem_of_bind h (fun _ => isSystem_of_check) fun _ _ h => nomatch h

section

variable {P : Write → Prop}

theorem within_insertLedgerEntry {ctx : Context} {id : Uuid} {args : TransactionArgs}
    {transactionId : Uuid} {accountId : Option Uuid} {entryType : EntryType}
    {balanceAfter : Option Money}
    (hrow : ∀ e, IsNewEntry args transactionId accountId entryType balanceAfter e →
      P (.ledgerEntry e)) :
    Call.Within P PgError.IsSystem
      (insertLedgerEntry ctx id args transactionId accountId entryType balanceAfter) := by
  refine Call.Within.bind (Call.within_evaluate fun e => isSystem_of_authUid) fun uid =>
    Call.within_statement ?_ ?_
  · intro db ws _ h w hw
    obtain ⟨e, hnew, h⟩ := bind_eq_ok.1 h
    repeat' split at h
    all_goals cases h
    cases List.mem_singleton.1 hw
    exact hrow e (newLedgerEntry_ok hnew)
  · intro db e h
    refine isSystem_of_bind h (fun _ => isSystem_of_newLedgerEntry) fun _ _ h => ?_
    repeat' split at h
    all_goals cases h <;> trivial

/-- The checks of a transfer write nothing. -/
theorem within_checkTransfer (args : TransactionArgs) :
    Call.Within P (fun _ => True) (checkTransfer args) := by
  refine Call.Within.bind (Call.within_select _) fun source =>
    Call.Within.bind (Call.Within.onlyIf fun _ => Call.within_throw trivial) fun _ =>
    Call.Within.bind (Call.within_select _) fun dest =>
    Call.Within.bind (Call.Within.onlyIf fun _ => Call.within_throw trivial) fun _ =>
    Call.Within.bind (Call.within_statement ?_ fun _ _ _ => trivial) fun locked =>
      Call.Within.onlyIf fun _ => Call.within_throw trivial
  intro db ws locked h w hw
  cases h
  cases hw

theorem within_insertTransaction {ctx : Context} {args : TransactionArgs}
    (hevent : ∀ e, P (.securityEvent e))
    (hrow : ∀ t, IsNewTransaction ctx args t → P (.transaction t)) :
    Call.Within P PgError.IsSystem (insertTransaction ctx args) := by
  refine Call.Within.bind (Call.within_evaluate fun e => isSystem_of_authUid) fun uid =>
    Call.Within.bind (Call.within_statement ?_ ?_) fun t => Call.Within.bind
      (within_detectBulkOperation hevent _ _ _ _) fun _ => Call.within_pure _
  · intro db ws t h w hw
    obtain ⟨t, hnew, h⟩ := bind_eq_ok.1 h
    repeat' split at h
    all_goals cases h
    cases List.mem_singleton.1 hw
    exact hrow t (newTransaction_ok hnew)
  · intro db e h
    refine isSystem_of_bind h (fun _ => isSystem_of_newTransaction) fun _ _ h => ?_
    repeat' split at h
    all_goals cases h <;> trivial

theorem within_insertAccount {ctx : Context} {args : AccountArgs}
    (hevent : ∀ e, P (.securityEvent e))
    (hrow : ∀ a, IsNewAccount ctx args a → P (.account a)) :
    Call.Within P PgError.IsSystem (insertAccount ctx args) := by
  refine Call.Within.bind (Call.within_evaluate fun e => isSystem_of_authUid) fun uid =>
    Call.Within.bind (Call.within_statement ?_ ?_) fun t => Call.Within.bind
      (within_detectBulkOperation hevent _ _ _ _) fun _ => Call.within_pure _
  · intro db ws a h w hw
    obtain ⟨a, hnew, h⟩ := bind_eq_ok.1 h
    repeat' split at h
    all_goals cases h
    cases List.mem_singleton.1 hw
    exact hrow a (newAccount_ok hnew)
  · intro db e h
    refine isSystem_of_bind h (fun _ => isSystem_of_newAccount) fun _ _ h => ?_
    repeat' split at h
    all_goals cases h <;> trivial

variable (hquiet : ∀ w, Write.Quiet w → P w)

include hquiet

/-- The trigger writes at most an audit row. -/
theorem within_validateBalance (ctx : Context) (id : Uuid) (old : Account) (balance : Money) :
    Call.Within P (fun _ => True) (validateBalance ctx id old balance) :=
  Call.Within.bind (Call.Within.onlyIf fun _ => Call.within_throw trivial) fun _ =>
    Call.Within.onlyIf fun _ => Call.Within.bind
      ((quiet_writeAuditLog _ _ _ _ _ _ _).mono hquiet fun _ _ => trivial) fun _ =>
      Call.within_pure _

/-- An update of a balance writes an account and rows of the logs. -/
theorem within_updateBalance {ctx : Context} {site : ℕ} {id : Option Uuid} {f : Numeric → Numeric}
    (hrow : ∀ a, P (.account a)) :
    Call.Within P (fun _ => True) (updateBalance ctx site id f) := by
  have hbulk := (quiet_detectBulkOperation ctx (ctx.uuid (site + 1)) "accounts" "UPDATE").mono
    hquiet fun _ _ => trivial
  refine Call.Within.bind (Call.within_statement ?_ fun _ _ _ => trivial) fun row => ?_
  · intro db ws row h w hw
    split at h
    · cases h
      cases hw
    · obtain ⟨_, -, h⟩ := bind_eq_ok.1 h
      obtain ⟨_, -, h⟩ := bind_eq_ok.1 h
      cases h
      cases hw
  · cases row with
    | none => exact Call.Within.bind hbulk fun _ => Call.within_pure _
    | some row =>
      refine Call.Within.bind (within_validateBalance hquiet _ _ _ _) fun _ =>
        Call.Within.bind (Call.within_evaluate fun _ _ => trivial) fun _ =>
        Call.Within.bind (Call.within_statement ?_ fun _ _ _ => trivial) fun _ =>
        Call.Within.bind hbulk fun _ => Call.within_pure _
      intro db ws _ h w hw
      cases h
      cases List.mem_singleton.1 hw
      exact hrow _

end

/-! ## Calls -/

/-- **What a call does to the database**: nothing to the books, a new account,
or a transfer. -/
theorem RpcCall.step_cases (db : Db) (c : RpcCall) :
    db.SameBooks (c.step db) ∨
    (∃ ctx args a, c = .createAccount ctx args ∧
      (EnterpriseSystem.createAccount ctx args).exec db = .ok (a, c.step db) ∧
      IsOpening ctx args a db (c.step db)) ∨
    ∃ ctx args t, c = .processTransaction ctx args ∧
      (EnterpriseSystem.processTransaction ctx args).exec db = .ok (t, c.step db) ∧
      IsTransfer ctx args t db (c.step db) := by
  unfold RpcCall.step
  cases hexec : c.rpc.exec db with
  | error e => exact Or.inl (.refl db)
  | ok r =>
    obtain ⟨u, db'⟩ := r
    cases c with
    | createAccount ctx args =>
      rw [RpcCall.rpc, execute_bind_eq_ok] at hexec
      obtain ⟨a, _, hcreate, hexec⟩ := hexec
      cases hexec
      exact Or.inr (Or.inl ⟨ctx, args, a, rfl, hcreate, createAccount_ok hcreate⟩)
    | processTransaction ctx args =>
      rw [RpcCall.rpc, execute_bind_eq_ok] at hexec
      obtain ⟨t, _, hprocess, hexec⟩ := hexec
      cases hexec
      rcases processTransaction_ok hprocess with ⟨-, -, hdb'⟩ | h
      · exact Or.inl hdb'
      · exact Or.inr (Or.inr ⟨ctx, args, t, rfl, hprocess, h⟩)

/-- No call changes a membership. -/
theorem RpcCall.organizationMembers_step (db : Db) (c : RpcCall) :
    (c.step db).organizationMembers = db.organizationMembers := by
  rcases c.step_cases db with hsame | ⟨ctx, args, a, -, -, ha⟩ | ⟨ctx, args, t, -, -, ht⟩
  · exact hsame.organizationMembers
  · exact ha.frame.organizationMembers
  · obtain ⟨_, _, _, _, -, -, ⟨-, hdb'⟩ | ⟨_, _, _, -, hdb'⟩⟩ := ht.postings
    · exact hdb'.organizationMembers
    · exact hdb'.organizationMembers

end EnterpriseSystem
