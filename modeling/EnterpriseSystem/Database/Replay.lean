import EnterpriseSystem.Base.Run
import EnterpriseSystem.Database.Transfer

/-!
# Replaying a transaction

A call with an idempotency key that its organization has used before is meant to
return the row of the first call.  The test for that row is `v_txn IS NOT NULL`,
and for a composite value this holds only when every one of its columns is set.
No function sets `failed_at`, so no row ever passes it (`NoFailures`), the call
goes on to insert the key again, and the unique constraint stops it.

* `Event` — what happens to the database: calls, and writes of other parts of
  the system to the other tables (a balance, a status, a member).
* `ReplaysTransaction` — what a replay owes its caller.
* `replay_raises` — it never happens.
-/

namespace EnterpriseSystem

open Relational Concurrency

/-- A call, or a row another part of the system writes to a table other than
`transactions`. -/
inductive Event where
  | call (c : RpcCall)
  | write (w : Write) (h : ∀ t, w ≠ .transaction t)

/-- What an event does to the database. -/
def Event.step (db : Db) : Event → Db
  | call c => c.step db
  | write w _ => db.apply w

/-- The call returns the row `t`, and leaves the financial tables as they are. -/
def ReplaysTransaction (ctx : Context) (args : TransactionArgs) (t : Transaction) (db : Db) :
    Prop :=
  ∃ db', (processTransaction ctx args).exec db = .ok (t, db') ∧ db'.accounts = db.accounts ∧
    db'.ledgerEntries = db.ledgerEntries ∧ db'.transactions = db.transactions

/-- The rate limit of `process_transaction` lets the call pass. -/
def PassesRateLimit (ctx : Context) (db : Db) : Prop :=
  ∃ db', (checkRateLimit ctx (some ("txn:" ++ formatUuid (authOrgId ctx)))
    (some ⟨50, Int4.fits_fifty⟩) (some ⟨10, Int4.fits_ten⟩)).exec db = .ok (some true, db')

/-- No transaction has ever been marked as failed. -/
def NoFailures (db : Db) : Prop := ∀ t ∈ db.transactions, t.failedAt = none

/-- **One event** marks no transaction as failed. -/
theorem NoFailures.step {db : Db} (h : NoFailures db) (e : Event) : NoFailures (e.step db) := by
  cases e with
  | write w hw =>
    cases w with
    | transaction t => exact absurd rfl (hw t)
    | _ => exact h
  | call c =>
    have hsame : ∀ {db' : Db}, db'.transactions = db.transactions → NoFailures db' := by
      intro db' heq t ht
      exact h t (heq ▸ ht)
    rcases c.step_cases db with hdb' | ⟨_, _, a, -, -, ha⟩ |
      ⟨ctx, args, t, -, -, ht⟩
    · exact hsame hdb'.transactions
    · exact hsame ha.frame.transactions
    · intro t' ht'
      rw [Event.step, ht.transactions] at ht'
      rcases Table.mem_put_iff.1 ht' with rfl | ⟨ht', -⟩
      · exact ht.row.failedAt
      · exact h t' ht'

/-- A call that uses a key of its organization again does not go through. -/
theorem NoFailures.raises {db : Db} (h : NoFailures db) {t : Transaction}
    (ht : t ∈ db.transactions) {k : String} (hk : t.idempotencyKey = some k) {ctx : Context}
    {args : TransactionArgs} (hkey : args.idempotencyKey = some k) :
    ∃ e, (processTransaction ctx args).exec db = .error e := by
  cases hexec : (processTransaction ctx args).exec db with
  | error e => exact ⟨e, rfl⟩
  | ok r =>
    obtain ⟨t', db'⟩ := r
    exfalso
    rcases processTransaction_ok hexec with ⟨hexisting, hnull, -⟩ | hnew
    · -- the row returned would have been marked as failed
      obtain ⟨_, _, hfind⟩ := Option.bind_eq_some_iff.1 hexisting
      obtain ⟨_, _, hfind⟩ := Option.bind_eq_some_iff.1 hfind
      exact hnull.2.2.2.2.2.1 (h t' (List.mem_of_find?_eq_some hfind))
    · -- the key would have been free
      exact hnew.key k (hnew.row.idempotencyKey.trans hkey) t ht hk

/-- **A replay always raises an error.**  In every state reached from a database
without accounts, a call with the organization and the key of a row that is
there fails, and so does not return that row. -/
theorem replay_raises {db₀ db : Db}
    (h : Reach (Deterministic Event.step) Always db₀.beforeAccounts db) {t : Transaction}
    (ht : t ∈ db.transactions) {k : String} (hk : t.idempotencyKey = some k) {ctx : Context}
    {args : TransactionArgs} (hkey : args.idempotencyKey = some k) :
    (∃ e, (processTransaction ctx args).exec db = .error e) ∧
      ¬ ReplaysTransaction ctx args t db := by
  have hinv : NoFailures db := by
    refine h.invariant (fun _ ht => nomatch ht) ?_
    rintro s e s' hs - rfl
    exact hs.step e
  obtain ⟨e, he⟩ := hinv.raises ht hk hkey
  refine ⟨⟨e, he⟩, ?_⟩
  rintro ⟨db', hok, -⟩
  rw [he] at hok
  cases hok

/-- Ten dollars between two accounts under the key `"k"`. -/
def keyedTransfer : List RpcCall :=
  RpcCall.openings ++ [.processTransaction (.plain true 7 1 0 300)
    (RpcCall.transferArgs 10 100 (some 200) (some "k"))]

/-- The transfer has left its row. -/
theorem exists_keyedTransfer :
    ∃ t ∈ (keyedTransfer.foldl RpcCall.step Db.starter.beforeAccounts).transactions,
      t.orgId = 1 ∧ t.idempotencyKey = some "k" := by
  have hrow : ((keyedTransfer.foldl RpcCall.step
      Db.starter.beforeAccounts).transactions.get? 300).any
        (fun t => decide (t.orgId = 1 ∧ t.idempotencyKey = some "k")) = true := by
    decide +kernel
  obtain ⟨t, ht, hkey⟩ := (Option.any_eq_true _ _).1 hrow
  exact ⟨t, Table.mem_of_get? ht, of_decide_eq_true hkey⟩

/-- The theorem at work: the same call a second time. -/
theorem replay_raises_keyedTransfer :
    let db := keyedTransfer.foldl RpcCall.step Db.starter.beforeAccounts
    let again := processTransaction (.plain true 7 1 0 400)
      (RpcCall.transferArgs 10 100 (some 200) (some "k"))
    ∃ e, again.exec db = .error e := by
  obtain ⟨t, ht, -, hk⟩ := exists_keyedTransfer
  have hreach : Reach (Deterministic Event.step) Always Db.starter.beforeAccounts
      ((keyedTransfer.map Event.call).foldl Event.step Db.starter.beforeAccounts) :=
    reach_foldl Event.step (fun _ _ _ => trivial) _
  rw [List.foldl_map] at hreach
  exact (replay_raises hreach ht hk rfl).1

/-- **The same call twice.**  The second one passes the rate limit and raises an
error. -/
theorem keyedTransfer_notReplayed :
    ¬ ∀ db₀ db, Reach (Deterministic RpcCall.step) Always (Db.beforeAccounts db₀) db →
      ∀ t ∈ db.transactions, ∀ k, t.idempotencyKey = some k → ∀ ctx args,
        args.orgId = some t.orgId → args.idempotencyKey = some k → PassesRateLimit ctx db →
          ReplaysTransaction ctx args t db := by
  intro h
  obtain ⟨t, ht, horg, hk⟩ := exists_keyedTransfer
  let db := keyedTransfer.foldl RpcCall.step Db.starter.beforeAccounts
  have hreach : Reach (Deterministic RpcCall.step) Always Db.starter.beforeAccounts db :=
    reach_foldl RpcCall.step (fun _ _ _ => trivial) _
  have hlimit : ((checkRateLimit (.plain true 7 1 0 400) (some ("txn:" ++ formatUuid (some 1)))
      (some ⟨50, by decide⟩) (some ⟨10, by decide⟩)).exec db).toOption.map Prod.fst =
        some (some true) := by
    decide +kernel
  have hfails : ((processTransaction (.plain true 7 1 0 400)
      (RpcCall.transferArgs 10 100 (some 200) (some "k"))).exec db).toOption.isNone = true := by
    decide +kernel
  have hpasses : PassesRateLimit (.plain true 7 1 0 400) db := exists_ok_of_toOption hlimit
  obtain ⟨db', hok, -⟩ := h Db.starter db hreach t ht "k" hk (.plain true 7 1 0 400)
    (RpcCall.transferArgs 10 100 (some 200) (some "k")) (by rw [horg]; rfl) rfl hpasses
  rw [hok] at hfails
  cases hfails

end EnterpriseSystem
