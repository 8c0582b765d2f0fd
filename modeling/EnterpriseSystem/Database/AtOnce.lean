import EnterpriseSystem.Base.AtomicCommit
import EnterpriseSystem.Database.PlanLimit

/-!
# Calls that happen at once

What `create_account` and `process_transaction` are for, without the statements they are made of: a
partial function of the books, that is of the tables without the security events, the rate limits
and the chain of hashes in the audit log.

* `AtOnce` — such a function; `AtOnce.processTransaction`, `AtOnce.createAccount`, `RpcCall.atOnce`.
* `Booking` — what the others leave alone while a call holds its locks.
* `Tracks` — what a call has written so far is a step on the books, whatever rows the call will have
  committed on; `Tracks.next` adds what such a function does.
-/

namespace EnterpriseSystem

open Relational Concurrency

/-! ## The specification -/

/-- An audit row without its place in the chain of hashes. -/
def AuditEntry.unchained (e : AuditEntry) : AuditEntry := { e with rowHash := "", prevHash := none }

theorem AuditEntry.unchained_id (e : AuditEntry) : e.unchained.id = e.id := rfl

/-- The audit log without its hashes. -/
def unchainedLog (t : Table AuditEntry.id) : Table AuditEntry.id :=
  t.update (fun _ => true) AuditEntry.unchained AuditEntry.unchained_id

/-- The database without its security events, its rate limits and its chain of hashes. -/
def Db.books (db : Db) : Db :=
  { db with
    auditLog := unchainedLog db.auditLog
    securityEvents := .empty _
    rateLimits := .empty _ }

/-- Something that happens to the books at once, if it happens. -/
abbrev AtOnce (α : Type) : Type := StateT Db Option α

namespace AtOnce

/-- The checks of a transfer. -/
def checkTransfer (args : TransactionArgs) : AtOnce Unit := fun db => do
  let source ← activeAccount args.orgId args.sourceAccount db
  guard (args.destAccount = none ∨ (activeAccount args.orgId args.destAccount db).isSome = true)
  guard (source.type ≠ .credit → ¬ (sqlLt (some source.balance.1.toNumeric) args.amount).Holds)
  return ((), db)

/-- The new row of `transactions`. -/
def insertTransaction (ctx : Context) (args : TransactionArgs) : AtOnce Transaction := fun db => do
  let uid ← (authUid ctx).toOption
  let t ← (newTransaction ctx uid (ctx.uuid 0) args).toOption
  guard (db.transactions.contains t.id = false ∧ keyTaken t.idempotencyKey db = false ∧
    db.organizations.contains t.orgId = true)
  return (t, db.apply (.transaction t))

/-- The new audit row. -/
def writeAuditLog (ctx : Context) (id : Uuid) (action : AuditAction) (tableName : String)
    (recordId : Option Uuid) (oldData newData : Option JsonObject) : AtOnce Unit := fun db => do
  let uid ← (resolveAuthUid ctx).toOption
  guard (db.auditLog.contains id = false)
  return ((), db.apply (.auditEntry
    (newAuditEntry ctx uid id action tableName recordId oldData newData none).unchained))

/-- An account, and the balance it is to have. -/
def nextBalance (id : Option Uuid) (f : Numeric → Numeric) : AtOnce (Account × Money) := fun db => do
  let old ← accountRow id db
  let balance ← Fixed.store 19 4 (f old.balance.1.toNumeric)
  return ((old, balance), db)

/-- The trigger: a balance below zero on a credit account only, and an audit row for a change. -/
def validateBalance (ctx : Context) (id : Uuid) (old : Account) (balance : Money) : AtOnce Unit := do
  StateT.lift (guard (old.type ≠ .credit → balance.toNumeric.lt (.finite 0) = false))
  (if old.balance.1 ≠ balance then
    writeAuditLog ctx id .update "accounts" (some old.id)
      (some [("balance", .ofNumeric old.balance.1.toNumeric)])
      (some [("balance", .ofNumeric balance.toNumeric)])
    else pure ())

/-- The row of the account with its new balance. -/
def storeBalance (ctx : Context) (old : Account) (balance : Money) : AtOnce Unit := fun db => do
  let checked ← (check "accounts_balance_check" InBalanceRange balance).toOption
  return ((), db.apply (.account { old with balance := checked, updatedAt := ctx.now }))

/-- A new balance. -/
def updateBalance (ctx : Context) (site : ℕ) (id : Option Uuid) (f : Numeric → Numeric) :
    AtOnce Money := do
  let next ← nextBalance id f
  validateBalance ctx (ctx.uuid site) next.1 next.2
  storeBalance ctx next.1 next.2
  return next.2

/-- The new row of `ledger_entries`. -/
def insertLedgerEntry (ctx : Context) (id : Uuid) (args : TransactionArgs) (transactionId : Uuid)
    (accountId : Option Uuid) (entryType : EntryType) (balanceAfter : Money) : AtOnce Unit :=
  fun db => do
    let uid ← (authUid ctx).toOption
    let e ← (newLedgerEntry ctx uid id args transactionId accountId entryType
      (some balanceAfter)).toOption
    guard (db.ledgerEntries.contains e.id = false)
    return ((), db.apply (.ledgerEntry e))

/-- A posting. -/
def postEntry (ctx : Context) (site : ℕ) (args : TransactionArgs) (transactionId : Uuid)
    (accountId : Option Uuid) (entryType : EntryType) (amount : Numeric) : AtOnce Unit := do
  let balance ← updateBalance ctx site accountId fun b => entryType.move b amount
  insertLedgerEntry ctx (ctx.uuid (site + 2)) args transactionId accountId entryType balance

/-- The writes of a transfer. -/
def postTransfer (ctx : Context) (args : TransactionArgs) : AtOnce Transaction := do
  let t ← insertTransaction ctx args
  let amount ← StateT.lift args.amount
  postEntry ctx 2 args t.id args.sourceAccount .debit amount
  (if args.destAccount ≠ none then postEntry ctx 5 args t.id args.destAccount .credit amount
    else pure ())
  writeAuditLog ctx (ctx.uuid 8) .create "transactions" (some t.id) none
    (some [("type", .ofText (args.type.map TransactionType.label)),
      ("amount", .ofNumeric args.amount), ("source", .ofUuid args.sourceAccount),
      ("dest", .ofUuid args.destAccount), ("idempotency_key", .ofText args.idempotencyKey)])
  return t

/-- A transfer, or the complete row that is already there for its key. -/
def processTransaction (ctx : Context) (args : TransactionArgs) : AtOnce Transaction := fun db =>
  match (existingTransaction args db).filter fun t => decide t.IsNotNull with
  | some t => some (t, db)
  | none => (do checkTransfer args; postTransfer ctx args : AtOnce Transaction) db

/-- A new account, where the plan has room for it. -/
def insertAccount (ctx : Context) (args : AccountArgs) : AtOnce Account := fun db => do
  guard (¬ ((sqlEq (orgPlan ctx db) (some .free)).Holds ∧ 3 ≤ accountCount ctx db))
  let uid ← (authUid ctx).toOption
  let a ← (newAccount ctx uid (ctx.uuid 0) args).toOption
  guard (db.accounts.contains a.id = false ∧ db.organizations.contains a.orgId = true)
  return (a, db.apply (.account a))

/-- A new account. -/
def createAccount (ctx : Context) (args : AccountArgs) : AtOnce Account := do
  let a ← insertAccount ctx args
  writeAuditLog ctx (ctx.uuid 2) .create "accounts" (some a.id) none
    (some [("name", .ofText args.name), ("type", .ofText (args.type.map AccountType.label)),
      ("currency", .ofText args.currency)])
  return a

end AtOnce

/-- The row that a call returns. -/
abbrev RpcAnswer : Type := Account ⊕ Transaction

/-- The call as a program that returns its row. -/
def RpcCall.answering : RpcCall → Rpc RpcAnswer
  | createAccount ctx args => do return .inl (← EnterpriseSystem.createAccount ctx args)
  | processTransaction ctx args => do return .inr (← EnterpriseSystem.processTransaction ctx args)

/-- What the call is for. -/
def RpcCall.atOnce : RpcCall → AtOnce RpcAnswer
  | createAccount ctx args => do return .inl (← AtOnce.createAccount ctx args)
  | processTransaction ctx args => do return .inr (← AtOnce.processTransaction ctx args)

/-! ## The discipline -/

/-- What the others leave alone while a call holds these locks: the organizations, whose accounts
are whose, and what the locks are for. -/
structure Booking (held : List LockKey) (db db' : Db) : Prop where
  organizations : db'.organizations = db.organizations
  accounts : db.KeepsAccounts db'
  account : ∀ id, accountLock id ∈ held → db'.accounts.get? id = db.accounts.get? id
  bucket : ∀ o, bucketLock o ∈ held → accountsOf o db' = accountsOf o db
  rows : db.transactions.rows <+: db'.transactions.rows
  transaction : ∀ id, .row .transactions id ∈ held →
    db'.transactions.get? id = db.transactions.get? id
  key : ∀ k, .idempotencyKey k ∈ held → keyTaken (some k) db' = keyTaken (some k) db
  entry : ∀ id, .row .ledgerEntries id ∈ held →
    db'.ledgerEntries.get? id = db.ledgerEntries.get? id
  audit : ∀ id, .row .auditLog id ∈ held → db'.auditLog.get? id = db.auditLog.get? id

/-- The same database, up to the security events and the rate limits. -/
def Db.SameRecords (db db' : Db) : Prop :=
  ∃ securityEvents rateLimits, db' = { db with securityEvents, rateLimits }

theorem Db.SameRecords.sameBooks {db db' : Db} (h : db.SameRecords db') : db.SameBooks db' := by
  obtain ⟨_, _, rfl⟩ := h
  exact ⟨_, _, _, rfl⟩

theorem Db.SameRecords.books {db db' : Db} (h : db.SameRecords db') : db'.books = db.books := by
  obtain ⟨_, _, rfl⟩ := h
  rfl

namespace Booking

variable {held held' : List LockKey} {db db' db'' : Db}

theorem refl (held : List LockKey) (db : Db) : Booking held db db where
  organizations := rfl
  accounts := .of_eq rfl
  account _ _ := rfl
  bucket _ _ := rfl
  rows := List.prefix_refl _
  transaction _ _ := rfl
  key _ _ := rfl
  entry _ _ := rfl
  audit _ _ := rfl

theorem trans (h : Booking held db db') (h' : Booking held db' db'') : Booking held db db'' where
  organizations := h'.organizations.trans h.organizations
  accounts := h.accounts.trans h'.accounts
  account id hid := (h'.account id hid).trans (h.account id hid)
  bucket o ho := (h'.bucket o ho).trans (h.bucket o ho)
  rows := h.rows.trans h'.rows
  transaction id hid := (h'.transaction id hid).trans (h.transaction id hid)
  key k hk := (h'.key k hk).trans (h.key k hk)
  entry id hid := (h'.entry id hid).trans (h.entry id hid)
  audit id hid := (h'.audit id hid).trans (h.audit id hid)

/-- Who holds fewer locks is promised less. -/
theorem mono (h : Booking held' db db') (hsub : ∀ k ∈ held, k ∈ held') : Booking held db db' where
  organizations := h.organizations
  accounts := h.accounts
  account id hid := h.account id (hsub _ hid)
  bucket o ho := h.bucket o (hsub _ ho)
  rows := h.rows
  transaction id hid := h.transaction id (hsub _ hid)
  key k hk := h.key k (hsub _ hk)
  entry id hid := h.entry id (hsub _ hid)
  audit id hid := h.audit id (hsub _ hid)

/-- The security events and the rate limits are not promised to anybody. -/
theorem of_sameRecords (held : List LockKey) (h : db.SameRecords db') : Booking held db db' := by
  obtain ⟨_, _, rfl⟩ := h
  exact { refl held db with }

end Booking

/-- The rules of the calls. -/
def booking : Discipline Db LockKey PgError where
  Inv _ := True
  Rely := Booking
  Allowed _ := True
  refl := Booking.refl
  trans := Booking.trans

/-! ## Rows that are written under their locks -/

section

variable {held' : List LockKey} {db : Db}

/-- **A new account** is in nobody's way who holds neither its lock nor its bucket. -/
theorem booking_openAccount {a : Account} (hfresh : db.accounts.get? a.id = none)
    (hlock : accountLock a.id ∉ held') (hbucket : bucketLock a.orgId ∉ held') :
    Booking held' db (db.apply (.account a)) := by
  have hother : ∀ id, id ≠ a.id → (db.apply (.account a)).accounts.get? id = db.accounts.get? id :=
    fun id hid => Table.get?_put_of_ne _ (Ne.symm hid)
  refine { Booking.refl held' db with accounts := ?_, account := ?_, bucket := ?_ }
  · intro i b hb
    have hne : i ≠ a.id := by
      rintro rfl
      rw [hfresh] at hb
      cases hb
    rw [hother i hne]
    exact ⟨_, _, hb⟩
  · intro id hid
    refine hother id ?_
    rintro rfl
    exact hlock hid
  · intro o ho
    have hne : a.orgId ≠ o := by
      rintro rfl
      exact hbucket ho
    rw [accountsOf_put hfresh, if_neg hne, Nat.add_zero]

/-- **A new balance** is in nobody's way who does not hold the lock of its account. -/
theorem booking_moveBalance {a : Account} {balance : Balance} {now : Timestamp}
    (hrow : db.accounts.get? a.id = some a) (hlock : accountLock a.id ∉ held') :
    Booking held' db (db.apply (.account { a with balance, updatedAt := now })) := by
  have hget : ∀ id, (db.apply (.account { a with balance, updatedAt := now })).accounts.get? id =
      if a.id = id then some { a with balance, updatedAt := now } else db.accounts.get? id :=
    fun id => Table.get?_put db.accounts { a with balance, updatedAt := now } id
  refine { Booking.refl held' db with accounts := ?_, account := ?_, bucket := ?_ }
  · intro i b hb
    rw [hget]
    by_cases hi : a.id = i
    · subst hi
      rw [hrow] at hb
      cases hb
      rw [if_pos rfl]
      exact ⟨_, _, rfl⟩
    · rw [if_neg hi]
      exact ⟨_, _, hb⟩
  · intro id hid
    rw [hget, if_neg]
    rintro rfl
    exact hlock hid
  · intro o _
    -- the row is replaced by one of the same organization
    have hrows : (db.apply (.account { a with balance, updatedAt := now })).accounts.rows =
        db.accounts.rows.map fun b =>
          if b.id = a.id then { a with balance, updatedAt := now } else b :=
      Table.rows_put_of_get?_some hrow
    rw [accountsOf, accountsOf, hrows, List.countP_map]
    refine List.countP_congr fun b hb => ?_
    by_cases hid : b.id = a.id
    · obtain rfl := Table.eq_of_key_eq (Table.mem_def.2 hb) (Table.mem_of_get? hrow) hid
      simp
    · simp [hid]

/-- **A new transaction** is in nobody's way who holds neither its lock nor its key. -/
theorem booking_insertTransaction {t : Transaction} (hfresh : db.transactions.get? t.id = none)
    (hlock : .row .transactions t.id ∉ held')
    (hkey : ∀ k, t.idempotencyKey = some k → .idempotencyKey k ∉ held') :
    Booking held' db (db.apply (.transaction t)) := by
  have hrows : (db.apply (.transaction t)).transactions.rows = db.transactions.rows ++ [t] :=
    Table.rows_put_of_get?_none hfresh
  refine { Booking.refl held' db with rows := ?_, transaction := ?_, key := ?_ }
  · rw [hrows]
    exact List.prefix_append _ _
  · intro id hid
    refine Table.get?_put_of_ne _ ?_
    rintro rfl
    exact hlock hid
  · intro k hk
    have hne : t.idempotencyKey ≠ some k := fun hc => hkey k hc hk
    simp [keyTaken, hrows, hne]

/-- **A new entry** is in nobody's way who does not hold its lock. -/
theorem booking_insertLedgerEntry {e : LedgerEntry} (hlock : .row .ledgerEntries e.id ∉ held') :
    Booking held' db (db.apply (.ledgerEntry e)) := by
  refine { Booking.refl held' db with entry := ?_ }
  intro id hid
  refine Table.get?_put_of_ne _ ?_
  rintro rfl
  exact hlock hid

/-- **A new audit row** is in nobody's way who does not hold its lock. -/
theorem booking_writeAuditLog {e : AuditEntry} (hlock : .row .auditLog e.id ∉ held') :
    Booking held' db (db.apply (.auditEntry e)) := by
  refine { Booking.refl held' db with audit := ?_ }
  intro id hid
  refine Table.get?_put_of_ne _ ?_
  rintro rfl
  exact hlock hid

end

/-! ## What a call has done so far -/

/-- The books after `M` and then `g`, which answers `c`. -/
def Then {γ : Type} (M : Db → Db → Prop) (g : AtOnce γ) (c : γ) (db db' : Db) : Prop :=
  ∃ between, M db between ∧ g between = some (c, db')

/-- What the call has written makes the step `M` on the books, whatever rows it will have committed
on, and is in nobody's way. -/
structure Tracks (M : Db → Db → Prop) (own : List Write) (held : List LockKey) (db : Db) : Prop where
  step : ∀ db', Booking held db db' → M db'.books (view Db.apply db' own).books
  others : ∀ db', Booking held db db' → ∀ held', (∀ k ∈ held, k ∉ held') →
    Booking held' db' (view Db.apply db' own)

/-- A row of the security events or of the rate limits. -/
def Write.Silent : Write → Prop
  | .securityEvent _ => True
  | .rateLimit _ => True
  | _ => False

theorem view_silent {ws : List Write} (h : ∀ w ∈ ws, w.Silent) (db : Db) :
    db.SameRecords (view Db.apply db ws) := by
  induction ws generalizing db with
  | nil => exact ⟨_, _, rfl⟩
  | cons w ws ih =>
    have hw : w.Silent := h w (List.mem_cons_self ..)
    obtain ⟨securityEvents, rateLimits, heq⟩ :=
      ih (fun w' hw' => h w' (List.mem_cons_of_mem _ hw')) (db.apply w)
    rw [view_cons, heq]
    cases w with
    | securityEvent e => exact ⟨_, _, rfl⟩
    | rateLimit r => exact ⟨_, _, rfl⟩
    | _ => exact hw.elim

theorem sameRecords_view {own ws : List Write} (h : ∀ w ∈ ws, w.Silent) (db : Db) :
    (view Db.apply db own).SameRecords (view Db.apply db (own ++ ws)) := by
  rw [view_append]
  exact view_silent h _

section

variable {γ : Type} {M : Db → Db → Prop} {own : List Write} {held : List LockKey} {db : Db}

theorem robust_tracks (M : Db → Db → Prop) : Robust booking Write.Silent (Tracks M) where
  stable h hrely _ :=
    ⟨fun db' hdb' => h.step db' (hrely.trans hdb'),
      fun db' hdb' => h.others db' (hrely.trans hdb')⟩
  append := by
    intro own held db ws ks h hws
    have hmono : ∀ {db'}, Booking (held ++ ks) db db' → Booking held db db' :=
      fun hdb' => hdb'.mono fun k hk => List.mem_append_left _ hk
    constructor
    · intro db' hdb'
      rw [(sameRecords_view hws db').books]
      exact h.step db' (hmono hdb')
    · intro db' hdb' held' hdisjoint
      exact (h.others db' (hmono hdb') held' fun k hk => hdisjoint k (List.mem_append_left _ hk)).trans
        (.of_sameRecords held' (sameRecords_view hws db'))

theorem tracks_start (db : Db) : Tracks Eq [] [] db where
  step _ _ := rfl
  others db' _ held' _ := .refl held' db'

theorem Tracks.mono {M' : Db → Db → Prop} (h : Tracks M own held db)
    (hM : ∀ db db', M db db' → M' db db') : Tracks M' own held db :=
  ⟨fun db' hdb' => hM _ _ (h.step db' hdb'), h.others⟩

/-- **The next step** of a call, on the rows it has left. -/
theorem Tracks.next {g : AtOnce γ} {c : γ} {ws : List Write} {ks : List LockKey}
    (h : Tracks M own held db)
    (hg : ∀ db', Booking (held ++ ks) db db' → g (view Db.apply db' own).books =
      some (c, (view Db.apply (view Db.apply db' own) ws).books))
    (hothers : ∀ db', Booking (held ++ ks) db db' → ∀ held', (∀ k ∈ held ++ ks, k ∉ held') →
      Booking held' (view Db.apply db' own) (view Db.apply (view Db.apply db' own) ws)) :
    Tracks (Then M g c) (own ++ ws) (held ++ ks) db := by
  have hmono : ∀ {db'}, Booking (held ++ ks) db db' → Booking held db db' :=
    fun hdb' => hdb'.mono fun k hk => List.mem_append_left _ hk
  constructor
  · intro db' hdb'
    rw [view_append]
    exact ⟨_, h.step db' (hmono hdb'), hg db' hdb'⟩
  · intro db' hdb' held' hdisjoint
    rw [view_append]
    exact (h.others db' (hmono hdb') held' fun k hk =>
      hdisjoint k (List.mem_append_left _ hk)).trans (hothers db' hdb' held' hdisjoint)

end

end EnterpriseSystem
