import EnterpriseSystem.Base.Run
import EnterpriseSystem.Database.Progress

/-!
# Currencies

An account has the currency it was created with.  A transfer writes `'USD'` into
its row and its entries and never looks at the currency of the accounts, so the
three columns agree exactly as long as every transfer is between accounts in
dollars.

* `CurrenciesAgree` — what should hold of the currencies.
* `InDollars` — the invariant of the runs in which it does: everything a transfer
  has touched is in dollars.
* `currencies_agree` — the result for runs.
-/

namespace EnterpriseSystem

open Relational Concurrency

/-- The currency of an account, if it is there. -/
def Db.currencyOf (db : Db) (id : Option Uuid) : Option String :=
  (accountRow id db).map fun a => a.currency.1

/-- An entry has the currency of its account, a transaction that of its source,
and the accounts of a transaction have the same. -/
structure CurrenciesAgree (db : Db) : Prop where
  entries : ∀ e ∈ db.ledgerEntries, db.currencyOf (some e.accountId) = some e.currency
  sources : ∀ t ∈ db.transactions, db.currencyOf t.sourceAccountId = some t.currency
  pairs : ∀ t ∈ db.transactions, ∀ a b, accountRow t.sourceAccountId db = some a →
    accountRow t.destAccountId db = some b → a.currency = b.currency

/-- An account keeps its currency. -/
theorem Db.KeepsAccounts.currencyOf {db db' : Db} (h : db.KeepsAccounts db') {id : Option Uuid}
    {c : String} (hc : db.currencyOf id = some c) : db'.currencyOf id = some c := by
  obtain ⟨a, ha, rfl⟩ := Option.map_eq_some_iff.1 hc
  obtain ⟨balance, updatedAt, ha'⟩ := h.accountRow ha
  rw [Db.currencyOf, ha']
  rfl

/-! ## The invariant -/

/-- Everything a transfer has touched is in dollars. -/
structure InDollars (db : Db) : Prop where
  entries : ∀ e ∈ db.ledgerEntries,
    e.currency = "USD" ∧ db.currencyOf (some e.accountId) = some "USD"
  sources : ∀ t ∈ db.transactions,
    t.currency = "USD" ∧ db.currencyOf t.sourceAccountId = some "USD"
  dests : ∀ t ∈ db.transactions,
    t.destAccountId = none ∨ db.currencyOf t.destAccountId = some "USD"

namespace InDollars

variable {db db' : Db}

theorem beforeAccounts (db : Db) : InDollars db.beforeAccounts where
  entries _ he := nomatch he
  sources _ ht := nomatch ht
  dests _ ht := nomatch ht

/-- The same transactions and entries are still in dollars. -/
theorem of_keepsAccounts (h : InDollars db) (haccounts : db.KeepsAccounts db')
    (htransactions : db'.transactions = db.transactions)
    (hentries : db'.ledgerEntries = db.ledgerEntries) : InDollars db' where
  entries e he := by
    rw [hentries] at he
    exact ⟨(h.entries e he).1, haccounts.currencyOf (h.entries e he).2⟩
  sources t ht := by
    rw [htransactions] at ht
    exact ⟨(h.sources t ht).1, haccounts.currencyOf (h.sources t ht).2⟩
  dests t ht := by
    rw [htransactions] at ht
    exact (h.dests t ht).imp id haccounts.currencyOf

/-- **A transfer between accounts in dollars** is in dollars. -/
theorem transfer (h : InDollars db) {ctx : Context} {args : TransactionArgs} {t : Transaction}
    (ht : IsTransfer ctx args t db db')
    (hdollars : ∀ id, (id = args.sourceAccount ∨ id = args.destAccount) → ∀ a,
      accountRow id db = some a → a.currency.1 = "USD") : InDollars db' := by
  have hkeeps := ht.keepsAccounts
  obtain ⟨source, hcovered⟩ := ht.covered
  have haccount : ∀ id, (id = args.sourceAccount ∨ id = args.destAccount) →
      id = none ∨ db'.currencyOf id = some "USD" := by
    intro id hid
    refine (hcovered.account hid).imp (fun h => h) ?_
    rintro ⟨a, ha, -⟩
    refine hkeeps.currencyOf ?_
    rw [Db.currencyOf, ha, Option.map_some, hdollars id hid a ha]
  refine ⟨?_, ?_, ?_⟩
  · intro e he
    rcases ht.entry_cases he with he | ⟨accountId, entryType, balance, hid, hnew⟩
    · exact ⟨(h.entries e he).1, hkeeps.currencyOf (h.entries e he).2⟩
    · refine ⟨hnew.currency, ?_⟩
      rw [← hnew.accountId]
      refine (haccount accountId hid).resolve_left ?_
      rw [hnew.accountId]
      exact Option.some_ne_none _
  · intro t' ht'
    rcases ht.mem_transactions.1 ht' with rfl | ht'
    · refine ⟨ht.row.currency, ?_⟩
      rw [ht.row.sourceAccountId]
      refine (haccount _ (Or.inl rfl)).resolve_left fun hnone => ?_
      have hactive := (activeAccount_eq_some.1 hcovered.sourceActive).1
      rw [hnone] at hactive
      cases hactive
    · exact ⟨(h.sources t' ht').1, hkeeps.currencyOf (h.sources t' ht').2⟩
  · intro t' ht'
    rcases ht.mem_transactions.1 ht' with rfl | ht'
    · rw [ht.row.destAccountId]
      exact haccount _ (Or.inr rfl)
    · exact (h.dests t' ht').imp id hkeeps.currencyOf

/-- The invariant says what it should of the currencies. -/
theorem agree (h : InDollars db) : CurrenciesAgree db where
  entries e he := by
    rw [(h.entries e he).2, (h.entries e he).1]
  sources t ht := by
    rw [(h.sources t ht).2, (h.sources t ht).1]
  pairs t ht a b ha hb := by
    have hsource := (h.sources t ht).2
    rw [Db.currencyOf, ha] at hsource
    rcases h.dests t ht with hnone | hdest
    · rw [hnone] at hb
      cases hb
    · rw [Db.currencyOf, hb] at hdest
      exact Subtype.ext ((Option.some.inj hsource).trans (Option.some.inj hdest).symm)

end InDollars

/-! ## Runs -/

/-- A call that is going to make a transfer names accounts in dollars. -/
def MovesDollars (db : Db) : RpcCall → Prop
  | .createAccount _ _ => True
  | .processTransaction ctx args => TransferReady ctx args db →
      ∀ id, (id = args.sourceAccount ∨ id = args.destAccount) → ∀ a, accountRow id db = some a →
        a.currency.1 = "USD"

/-- **One call** that moves dollars keeps the invariant. -/
theorem InDollars.step {db : Db} (h : InDollars db) {c : RpcCall} (hc : MovesDollars db c) :
    InDollars (c.step db) := by
  rcases c.step_cases db with hsame | ⟨ctx, args, a, rfl, -, ha⟩ | ⟨ctx, args, t, rfl, hexec, ht⟩
  · exact h.of_keepsAccounts (.of_eq hsame.accounts) hsame.transactions hsame.ledgerEntries
  · exact h.of_keepsAccounts ha.keepsAccounts ha.frame.transactions ha.frame.ledgerEntries
  · exact h.transfer ht (hc (ht.ready hexec))

/-- **The currencies agree**, in every state reached by calls that move
dollars. -/
theorem currencies_agree {db₀ db : Db}
    (h : Reach (Deterministic RpcCall.step) MovesDollars db₀.beforeAccounts db) :
    CurrenciesAgree db := by
  have hinv : InDollars db := by
    refine h.invariant (InDollars.beforeAccounts db₀) ?_
    rintro s c s' hs hc rfl
    exact hs.step hc
  exact hinv.agree

/-- The theorem at work: ten dollars from a credit account to a checking account. -/
theorem currencies_agree_transfer :
    CurrenciesAgree ((RpcCall.transfer 300 10 100 (some 200)).step
      (RpcCall.openings.foldl RpcCall.step Db.starter.beforeAccounts)) := by
  let db := RpcCall.openings.foldl RpcCall.step Db.starter.beforeAccounts
  have hopenings : Reach (Deterministic RpcCall.step) MovesDollars Db.starter.beforeAccounts db := by
    refine reach_foldl RpcCall.step (fun c hc s => ?_) _
    simp only [RpcCall.openings, List.mem_cons, List.not_mem_nil, or_false] at hc
    rcases hc with rfl | rfl <;> trivial
  have hdollars : (db.accounts.rows.all fun a => decide (a.currency.1 = "USD")) = true := by
    decide +kernel
  refine currencies_agree (hopenings.next ?_ rfl)
  intro _ id _ a ha
  obtain ⟨i, -, hrow⟩ := Option.bind_eq_some_iff.1 ha
  exact of_decide_eq_true (List.all_eq_true.1 hdollars a (Table.mem_of_get? hrow))

/-- An account in euros, under the identifier `id`. -/
def RpcCall.openingInEuros (id : ℕ) (type : AccountType) : RpcCall :=
  .createAccount (.plain true 7 1 0 id)
    { name := some "account", type := some type, currency := some "EUR",
      metadata := some ⟨"{}"⟩ }

/-- **Ten euros are ten dollars.**  A transfer between two accounts in euros is
recorded in dollars. -/
theorem currencies_disagree_euros :
    ¬ ∀ db₀ db, Reach (Deterministic RpcCall.step)
        (fun _ c => c.context.server.resolvesUnqualified = true) (Db.beforeAccounts db₀) db →
      CurrenciesAgree db := by
  intro h
  let calls : List RpcCall :=
    [.openingInEuros 100 .credit, .openingInEuros 200 .checking, .transfer 300 10 100 (some 200)]
  let db := calls.foldl RpcCall.step Db.starter.beforeAccounts
  have hresolves : ∀ c ∈ calls, c.context.server.resolvesUnqualified = true := by decide
  have hagree := h Db.starter db (reach_foldl RpcCall.step (fun c hc _ => hresolves c hc) _)
  have hdisagree : (db.transactions.rows.any fun t =>
      decide (db.currencyOf t.sourceAccountId ≠ some t.currency)) = true := by
    decide +kernel
  obtain ⟨t, ht, hne⟩ := List.any_eq_true.1 hdisagree
  exact of_decide_eq_true hne (hagree.sources t ht)

end EnterpriseSystem
