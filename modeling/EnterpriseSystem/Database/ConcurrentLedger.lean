import EnterpriseSystem.Database.Ledger
import EnterpriseSystem.Database.Serializable

/-!
# The ledger under concurrency

What calls keep that run one after the other, they keep in any interleaving, since a commit is what
its call is for.

* `transfer_of_atOnce`, `opening_of_atOnce` — what happens at once is a transfer, or an opening.
* `RpcCall.commit_cases` — what a commit does to the committed rows.
* `ledger_concurrent` — the balances and the double entry, in every interleaving.
-/

namespace EnterpriseSystem

open Relational Concurrency

section

variable {ctx : Context} {db db' : Db}

theorem of_guard {c : Prop} [Decidable c] {u : Unit} (h : (guard c : Option Unit) = some u) : c := by
  by_cases hc : c
  · exact hc
  · rw [guard, if_neg hc] at h
    cases h

theorem ok_of_toOption {α : Type} {r : Except PgError α} {a : α} (h : r.toOption = some a) :
    r = .ok a := by
  cases r with
  | error e => cases h
  | ok b => exact congrArg Except.ok (Option.some.inj h)

theorem bind_eq_some {β γ : Type} {f : AtOnce β} {g : β → AtOnce γ} {c : γ}
    (h : (f >>= g) db = some (c, db')) : ∃ b between, f db = some (b, between) ∧
      g b between = some (c, db') := by
  obtain ⟨⟨b, between⟩, hf, hg⟩ := Option.bind_eq_some_iff.1
    (show (f db).bind (fun p => g p.1 p.2) = _ from h)
  exact ⟨b, between, hf, hg⟩

/-! ## What happens at once -/

theorem covered_of_atOnce {args : TransactionArgs} {u : Unit}
    (h : AtOnce.checkTransfer args db = some (u, db')) :
    db' = db ∧ ∃ source, IsCovered args db source := by
  simp only [AtOnce.checkTransfer, Option.bind_eq_bind, Option.bind_eq_some_iff] at h
  obtain ⟨source, hsource, _, hdest, _, hfunds, h⟩ := h
  cases h
  refine ⟨rfl, source, hsource, ?_, fun hcredit x hx => ?_⟩
  · exact (of_guard hdest).imp id Option.isSome_iff_exists.1
  · have hcovered := of_guard hfunds hcredit
    rw [hx] at hcovered
    simpa [sqlLt] using hcovered

theorem inserted_of_atOnce {args : TransactionArgs} {t : Transaction}
    (h : AtOnce.insertTransaction ctx args db = some (t, db')) :
    IsNewTransaction ctx args t ∧ db.transactions.get? t.id = none ∧
      (∀ k, t.idempotencyKey = some k → ∀ t' ∈ db.transactions, t'.idempotencyKey ≠ some k) ∧
      db.organizations.contains t.orgId = true ∧ db' = db.apply (.transaction t) := by
  simp only [AtOnce.insertTransaction, Option.bind_eq_bind, Option.bind_eq_some_iff] at h
  obtain ⟨uid, -, t, hnew, _, hguard, h⟩ := h
  cases h
  obtain ⟨hid, hkey, horg⟩ := of_guard hguard
  exact ⟨newTransaction_ok (ok_of_toOption hnew), Table.contains_eq_false_iff.1 hid,
    keyTaken_eq_false_iff.1 hkey, horg, rfl⟩

theorem sameBooks_of_audit {id : Uuid} {action : AuditAction} {tableName : String}
    {recordId : Option Uuid} {oldData newData : Option JsonObject} {u : Unit}
    (h : AtOnce.writeAuditLog ctx id action tableName recordId oldData newData db = some (u, db')) :
    ctx.server.resolvesUnqualified = true ∧ db.SameBooks db' := by
  simp only [AtOnce.writeAuditLog, Option.bind_eq_bind, Option.bind_eq_some_iff] at h
  obtain ⟨uid, huid, _, -, h⟩ := h
  cases h
  refine ⟨?_, _, _, _, rfl⟩
  by_contra hresolves
  rw [resolveAuthUid, if_neg hresolves] at huid
  cases huid

theorem moved_of_atOnce {site : ℕ} {id : Option Uuid} {f : Numeric → Numeric} {balance : Money}
    (h : AtOnce.updateBalance ctx site id f db = some (balance, db')) :
    ∃ (old : Account) (new : Balance), accountRow id db = some old ∧ new.1 = balance ∧
      Fixed.store 19 4 (f old.balance.1.toNumeric) = some balance ∧
      (old.type ≠ .credit → balance.toNumeric.lt (.finite 0) = false) ∧
      (db.apply (.account { old with balance := new, updatedAt := ctx.now })).SameBooks db' := by
  obtain ⟨⟨old, next⟩, _, hnext, h⟩ := bind_eq_some h
  simp only [AtOnce.nextBalance, Option.bind_eq_bind, Option.bind_eq_some_iff] at hnext
  obtain ⟨_, hrow, _, hstore, hnext⟩ := hnext
  cases hnext
  obtain ⟨_, db₁, hvalidate, h⟩ := bind_eq_some h
  obtain ⟨_, _, hpassed, haudit⟩ := bind_eq_some hvalidate
  obtain ⟨_, hsolvent, hpassed⟩ := Option.bind_eq_some_iff.1 hpassed
  cases hpassed
  obtain ⟨_, db₂, hstored, h⟩ := bind_eq_some h
  cases h
  simp only [AtOnce.storeBalance, Option.bind_eq_bind, Option.bind_eq_some_iff] at hstored
  obtain ⟨checked, hchecked, hstored⟩ := hstored
  cases hstored
  refine ⟨old, checked, hrow, (check_ok.1 (ok_of_toOption hchecked)).symm, hstore,
    of_guard hsolvent, ?_⟩
  split at haudit
  · exact (sameBooks_of_audit haudit).2.apply _
  · cases haudit
    exact .refl _

theorem posting_of_atOnce {site : ℕ} {args : TransactionArgs} {transactionId : Uuid}
    {accountId : Option Uuid} {entryType : EntryType} {amount : Numeric} {u : Unit}
    (h : AtOnce.postEntry ctx site args transactionId accountId entryType amount db =
      some (u, db')) :
    ∃ old new e, IsPosting args transactionId accountId entryType amount db old new e ∧
      (db.post new e).SameBooks db' := by
  obtain ⟨balance, between, hmove, hrecord⟩ := bind_eq_some h
  obtain ⟨old, new, hrow, rfl, hstore, hsolvent, hbetween⟩ := moved_of_atOnce hmove
  simp only [AtOnce.insertLedgerEntry, Option.bind_eq_bind, Option.bind_eq_some_iff] at hrecord
  obtain ⟨uid, -, e, hnew, _, hfresh, hrecord⟩ := hrecord
  cases hrecord
  have hunused := Table.contains_eq_false_iff.1 (of_guard hfresh)
  exact ⟨old, { old with balance := new, updatedAt := ctx.now }, e, {
    row := hrow
    balance := hstore
    solvent := hsolvent
    frame := ⟨_, rfl⟩
    entry := newLedgerEntry_ok (ok_of_toOption hnew)
    fresh := hbetween.ledgerEntries ▸ hunused }, hbetween.apply _⟩

/-- **What `process_transaction` does at once** is a transfer, unless a row is there for its key. -/
theorem transfer_of_atOnce {args : TransactionArgs} {t : Transaction}
    (h : AtOnce.processTransaction ctx args db = some (t, db')) :
    db' = db ∨ IsTransfer ctx args t db db' := by
  rw [AtOnce.processTransaction] at h
  split at h
  · cases h
    exact Or.inl rfl
  obtain ⟨_, db₀, hcheck, hpost⟩ := bind_eq_some h
  clear h
  obtain ⟨rfl, hcovered⟩ := covered_of_atOnce hcheck
  obtain ⟨t', db₁, hinsert, h⟩ := bind_eq_some hpost
  obtain ⟨hrow, hfresh, hkey, horg, rfl⟩ := inserted_of_atOnce hinsert
  obtain ⟨amount, _, hlift, h⟩ := bind_eq_some h
  obtain ⟨_, hamount, hlift⟩ := Option.bind_eq_some_iff.1 hlift
  cases hlift
  obtain ⟨_, db₂, hdebit, h⟩ := bind_eq_some h
  obtain ⟨source, source', debit, hposted, hdb₂⟩ := posting_of_atOnce hdebit
  obtain ⟨_, db₃, hcredit, h⟩ := bind_eq_some h
  obtain ⟨_, db₄, haudit, h⟩ := bind_eq_some h
  cases h
  obtain ⟨hresolves, hdb₄⟩ := sameBooks_of_audit haudit
  refine Or.inr ⟨hrow, hfresh, hkey, horg, hcovered, hresolves, amount, source, source', debit,
    hamount, hposted.congr rfl rfl, ?_⟩
  split at hcredit
  · obtain ⟨dest, dest', credit, hposted', hdb₃⟩ := posting_of_atOnce hcredit
    exact Or.inr ⟨dest, dest', credit, hposted'.congr hdb₂.accounts.symm hdb₂.ledgerEntries.symm,
      ((hdb₂.post dest' credit).trans hdb₃).trans hdb₄⟩
  · rename_i hnone
    cases hcredit
    exact Or.inl ⟨not_ne_iff.1 hnone, hdb₂.trans hdb₄⟩

/-- **What `create_account` does at once** is an opening. -/
theorem opening_of_atOnce {args : AccountArgs} {a : Account}
    (h : AtOnce.createAccount ctx args db = some (a, db')) : IsOpening ctx args a db db' := by
  obtain ⟨a', db₁, hinsert, h⟩ := bind_eq_some h
  simp only [AtOnce.insertAccount, Option.bind_eq_bind, Option.bind_eq_some_iff] at hinsert
  obtain ⟨_, hplan, uid, -, a', hnew, _, hguard, hinsert⟩ := hinsert
  cases hinsert
  obtain ⟨_, _, haudit, h⟩ := bind_eq_some h
  cases h
  obtain ⟨hresolves, hframe⟩ := sameBooks_of_audit haudit
  obtain ⟨hid, horg⟩ := of_guard hguard
  exact {
    row := newAccount_ok (ok_of_toOption hnew)
    fresh := Table.contains_eq_false_iff.1 hid
    organization := horg
    plan := of_guard hplan
    logged := hresolves
    frame := hframe }

/-- **What a commit does**: nothing to the books, a new account, or a transfer. -/
theorem RpcCall.commit_cases {c : RpcCall} {a : RpcAnswer}
    (h : c.atOnce db.books = some (a, db'.books)) :
    db.books = db'.books ∨
      (∃ ctx args a, c = .createAccount ctx args ∧ IsOpening ctx args a db.books db'.books) ∨
      ∃ ctx args t, c = .processTransaction ctx args ∧
        IsTransfer ctx args t db.books db'.books := by
  cases c with
  | createAccount ctx args =>
    obtain ⟨a', _, hopen, h⟩ := bind_eq_some h
    cases h
    exact Or.inr (Or.inl ⟨ctx, args, a', rfl, opening_of_atOnce hopen⟩)
  | processTransaction ctx args =>
    obtain ⟨t, _, hprocess, h⟩ := bind_eq_some h
    cases h
    rcases transfer_of_atOnce hprocess with hsame | htransfer
    · exact Or.inl hsame.symm
    · exact Or.inr (Or.inr ⟨ctx, args, t, rfl, htransfer⟩)

end

/-! ## The invariants -/

theorem reconciled_books {db : Db} : Reconciled db.books ↔ Reconciled db :=
  ⟨fun h => h.of_eq rfl rfl, fun h => h.of_eq rfl rfl⟩

theorem doubled_books {db : Db} : Doubled db.books ↔ Doubled db :=
  ⟨fun h => h.of_eq rfl rfl, fun h => h.of_eq rfl rfl⟩

/-- A transfer that rounds consistently keeps the balances and the ledger together. -/
theorem Reconciled.transfer {db db' : Db} (h : Reconciled db) {ctx : Context}
    {args : TransactionArgs} {t : Transaction} (ht : IsTransfer ctx args t db db')
    (hc : RoundsConsistently db (.processTransaction ctx args)) : Reconciled db' := by
  obtain ⟨amount, source, source', debit, hamount, hdebit, hrest⟩ := ht.postings
  obtain ⟨q, rfl, hq, hfinite, -, -⟩ := hdebit.units hamount
  obtain ⟨hsource, hdest⟩ := hc q hamount hq
  have htransaction : Reconciled (db.apply (.transaction t)) := h.of_eq rfl rfl
  have hdebit' : IsPosting args t.id args.sourceAccount .debit (.finite q)
      (db.apply (.transaction t)) source source' debit := hdebit.congr rfl rfl
  have hfirst := htransaction.post hdebit' hfinite
    ((hdebit'.exact_iff hamount).2 (hsource source hdebit.row))
  rcases hrest with ⟨-, hdb'⟩ | ⟨dest, dest', credit, hcredit, hdb'⟩
  · exact hfirst.of_eq hdb'.accounts hdb'.ledgerEntries
  · obtain ⟨_, -, -, hfinite', -, -⟩ := hcredit.units hamount
    have hrow := hcredit.row
    rw [ht.row.accountRow_dest hdebit.accountId_eq] at hrow
    exact (hfirst.post hcredit hfinite'
      ((hcredit.exact_iff hamount).2 (hdest dest hrow))).of_eq hdb'.accounts hdb'.ledgerEntries

/-- A commit that rounds consistently keeps them together. -/
theorem Reconciled.commit {db db' : Db} (h : Reconciled db) {c : RpcCall} {a : RpcAnswer}
    (hc : RoundsConsistently db c) (hcommit : c.atOnce db.books = some (a, db'.books)) :
    Reconciled db' := by
  rw [← reconciled_books] at h ⊢
  rcases RpcCall.commit_cases hcommit with hsame | ⟨ctx, args, a, rfl, ha⟩ | ⟨ctx, args, t, rfl, ht⟩
  · exact hsame ▸ h
  · exact (h.create ha.fresh ha.row.balance).of_eq ha.frame.accounts ha.frame.ledgerEntries
  · exact h.transfer ht hc

/-- A commit that names a destination keeps the transactions balanced. -/
theorem Doubled.commit {db db' : Db} (h : Doubled db) {c : RpcCall} {a : RpcAnswer}
    (hc : NamesDestination db c) (hcommit : c.atOnce db.books = some (a, db'.books)) :
    Doubled db' := by
  rw [← doubled_books] at h ⊢
  rcases RpcCall.commit_cases hcommit with hsame | ⟨ctx, args, a, rfl, ha⟩ | ⟨ctx, args, t, rfl, ht⟩
  · exact hsame ▸ h
  · exact h.of_eq ha.frame.transactions ha.frame.ledgerEntries
  · exact h.transfer ht hc

/-! ## Runs -/

section

variable {ι : Type} [DecidableEq ι] {calls : ι → RpcCall} {db : Db}
  {σ : State ι Db Write LockKey PgError RpcAnswer}
  {steps : List (State ι Db Write LockKey PgError RpcAnswer × ι ×
    State ι Db Write LockKey PgError RpcAnswer)}

/-- The calls that commit meet the condition on the rows they commit on. -/
def CommitsMeet (G : Db → RpcCall → Prop) (calls : ι → RpcCall)
    (steps : List (State ι Db Write LockKey PgError RpcAnswer × ι ×
      State ι Db Write LockKey PgError RpcAnswer)) : Prop :=
  ∀ p ∈ steps, commit? p ≠ none → G p.1.committed (calls p.2.1)

/-- **The ledger under concurrency**: from a database without accounts on, the balances agree with
the ledger if every commit rounds consistently, and every transaction is balanced if every commit
names a destination. -/
theorem ledger_concurrent
    (h : Run (Step Db.apply) Always (RpcCall.answerAll calls db.beforeAccounts) steps σ) :
    (CommitsMeet RoundsConsistently calls steps →
      ∀ a ∈ σ.committed.accounts, AgreesWithLedger σ.committed a) ∧
    (CommitsMeet NamesDestination calls steps →
      (∀ t ∈ σ.committed.transactions, IsBalanced σ.committed t) ∧ SumsToZero σ.committed) := by
  have hcommits : ∀ i, Call.wp Db.apply booking (calls i).answering (CommitsAs Db.apply booking
      fun a db db' => (calls i).atOnce db.books = some (a, db'.books)) [] [] db.beforeAccounts :=
    fun i => (calls i).commitsAs db.beforeAccounts
  constructor
  · intro hrounds
    have hreconciled : Reconciled σ.committed := Discipline.keeps (R := booking) trivial hcommits h
      (Reconciled.beforeAccounts db) (fun i a d d' hd hc hcommit => hd.commit hc hcommit) hrounds
    exact fun a ha => hreconciled.agrees ha
  · intro hnames
    have hdoubled : Doubled σ.committed := Discipline.keeps (R := booking) trivial hcommits h
      (Doubled.beforeAccounts db) (fun i a d d' hd hc hcommit => hd.commit hc hcommit) hnames
    exact hdoubled.balanced

end

/-- Two accounts, and ten dollars from the one to the other. -/
def RpcCall.openAndMove : ℕ → RpcCall
  | 0 => .opening 100 .credit
  | 1 => .opening 200 .checking
  | n + 2 => .transfer (300 + 10 * n) 10 100 (some 200)

/-- The theorem at work: two of these transfers, from an empty book on. -/
theorem ledger_concurrent_openAndMove :
    ∃ steps σ, Run (Step Db.apply) Always
        (RpcCall.answerAll RpcCall.openAndMove Db.starter.beforeAccounts) steps σ ∧
      (∀ a ∈ σ.committed.accounts, AgreesWithLedger σ.committed a) ∧
      ((∀ t ∈ σ.committed.transactions, IsBalanced σ.committed t) ∧ SumsToZero σ.committed) ∧
      σ.committed.transactions.rows.length = 2 := by
  have htwice : (serial Db.apply (fun n => (RpcCall.openAndMove n).answering) [1, 0, 3, 2]
      Db.starter.beforeAccounts).any (fun db' => db'.transactions.rows.length == 2) = true := by
    decide +kernel
  obtain ⟨db', hserial, htwo⟩ := (Option.any_eq_true _ _).1 htwice
  obtain ⟨σ, hreach, rfl⟩ := reach_of_serial (by decide) hserial
  obtain ⟨steps, hrun⟩ := hreach.exists_run
  have hrounds : ∀ db n, RoundsConsistently db (RpcCall.openAndMove n) := by
    rintro db (_ | _ | n)
    · trivial
    · trivial
    · intro q hq _
      cases hq
      have hnot : ¬ IsTie (10 * 10 ^ 4) := by
        have hinteger := not_isTie_intCast 100000
        norm_num at hinteger ⊢
        exact hinteger
      exact ⟨fun a _ htie => absurd htie hnot, fun a _ htie => absurd htie hnot⟩
  have hnames : ∀ db n, NamesDestination db (RpcCall.openAndMove n) := by
    rintro db (_ | _ | n)
    · trivial
    · trivial
    · exact Option.some_ne_none _
  obtain ⟨hagrees, hbalanced⟩ := ledger_concurrent hrun
  exact ⟨steps, σ, hrun, hagrees fun p _ _ => hrounds _ _, hbalanced fun p _ _ => hnames _ _,
    eq_of_beq htwo⟩

end EnterpriseSystem
