import EnterpriseSystem.Base.Run
import EnterpriseSystem.Database.Readers
import EnterpriseSystem.Database.Transfer

/-!
# What a tenant sees of the books

The readers select transactions and entries by organization, and then look up
accounts and entries by identifier only.  They show a caller nothing of another
organization because every transaction ever written shares its organization with
its accounts and its entries.

* `Db.SameIn` — two states have the same financial rows of an organization.
* `SharesOrganization` — the invariant of the runs.
* `readers_isolated` — the readers answer from the rows of the caller's
  organization alone.
-/

namespace EnterpriseSystem

open Relational Concurrency

/-- The two states have the same accounts, transactions and entries of the
organization. -/
structure Db.SameIn (o : Uuid) (db db' : Db) : Prop where
  accounts : ∀ a : Account, a.orgId = o → (a ∈ db.accounts ↔ a ∈ db'.accounts)
  transactions : ∀ t : Transaction, t.orgId = o → (t ∈ db.transactions ↔ t ∈ db'.transactions)
  ledgerEntries : ∀ e : LedgerEntry, e.orgId = o → (e ∈ db.ledgerEntries ↔ e ∈ db'.ledgerEntries)

theorem Db.SameIn.symm {o : Uuid} {db db' : Db} (h : db.SameIn o db') : db'.SameIn o db where
  accounts a ha := (h.accounts a ha).symm
  transactions t ht := (h.transactions t ht).symm
  ledgerEntries e he := (h.ledgerEntries e he).symm

/-! ## The invariant -/

/-- A transaction shares its organization with its accounts and with its
entries. -/
structure SharesOrganization (db : Db) : Prop where
  accounts : ∀ t ∈ db.transactions, ∀ id, (id = t.sourceAccountId ∨ id = t.destAccountId) →
    id = none ∨ ∃ a, accountRow id db = some a ∧ a.orgId = t.orgId
  entries : ∀ e ∈ db.ledgerEntries, ∃ t ∈ db.transactions,
    t.id = e.transactionId ∧ t.orgId = e.orgId

namespace SharesOrganization

variable {db db' : Db}

theorem beforeAccounts (db : Db) : SharesOrganization db.beforeAccounts where
  accounts _ ht := nomatch ht
  entries _ he := nomatch he

theorem of_keepsAccounts (h : SharesOrganization db) (haccounts : db.KeepsAccounts db')
    (htransactions : db'.transactions = db.transactions)
    (hentries : db'.ledgerEntries = db.ledgerEntries) : SharesOrganization db' where
  accounts t ht id hid := by
    rw [htransactions] at ht
    refine (h.accounts t ht id hid).imp (fun h => h) ?_
    rintro ⟨a, ha, horg⟩
    obtain ⟨balance, updatedAt, ha'⟩ := haccounts.accountRow ha
    exact ⟨_, ha', horg⟩
  entries := by
    rw [hentries, htransactions]
    exact h.entries

/-- **A transfer** is made between accounts of one organization, under its name. -/
theorem transfer (h : SharesOrganization db) {ctx : Context} {args : TransactionArgs}
    {t : Transaction} (ht : IsTransfer ctx args t db db') : SharesOrganization db' := by
  have hkeeps := ht.keepsAccounts
  have hstays : ∀ {id o}, (id = none ∨ ∃ a, accountRow id db = some a ∧ a.orgId = o) →
      id = none ∨ ∃ a, accountRow id db' = some a ∧ a.orgId = o := by
    intro id o hid
    refine hid.imp (fun h => h) ?_
    rintro ⟨a, ha, horg⟩
    obtain ⟨balance, updatedAt, ha'⟩ := hkeeps.accountRow ha
    exact ⟨_, ha', horg⟩
  constructor
  · intro t' ht' id hid
    rcases ht.mem_transactions.1 ht' with rfl | ht'
    · rw [ht.row.sourceAccountId, ht.row.destAccountId] at hid
      obtain ⟨source, hcovered⟩ := ht.covered
      refine hstays ((hcovered.account hid).imp (fun h => h) ?_)
      rintro ⟨a, ha, horg⟩
      exact ⟨a, ha, Option.some.inj (horg.symm.trans ht.row.orgId)⟩
    · exact hstays (h.accounts t' ht' id hid)
  · intro e he
    rcases ht.entry_cases he with he | ⟨accountId, entryType, balance, -, hnew⟩
    · obtain ⟨t', ht', hid, horg⟩ := h.entries e he
      exact ⟨t', ht.mem_transactions.2 (Or.inr ht'), hid, horg⟩
    · exact ⟨t, ht.mem_transactions.2 (Or.inl rfl), hnew.transactionId.symm,
        Option.some.inj (ht.row.orgId.symm.trans hnew.orgId)⟩

/-- **Every call** keeps the invariant. -/
theorem step (h : SharesOrganization db) (c : RpcCall) : SharesOrganization (c.step db) := by
  rcases c.step_cases db with hsame | ⟨ctx, args, a, rfl, -, ha⟩ | ⟨ctx, args, t, rfl, -, ht⟩
  · exact h.of_keepsAccounts (.of_eq hsame.accounts) hsame.transactions hsame.ledgerEntries
  · exact h.of_keepsAccounts ha.keepsAccounts ha.frame.transactions ha.frame.ledgerEntries
  · exact h.transfer ht

theorem of_reach {db₀ : Db}
    (h : Reach (Deterministic RpcCall.step) Always db₀.beforeAccounts db) :
    SharesOrganization db := by
  refine h.invariant (SharesOrganization.beforeAccounts db₀) ?_
  rintro s c s' hs - rfl
  exact hs.step c

end SharesOrganization

/-! ## The readers -/

section

variable {o : Uuid} {db db' : Db} (h : SharesOrganization db) (h' : SharesOrganization db')
  (hsame : db.SameIn o db')

include h hsame

/-- The accounts of a transaction of the organization are the same. -/
theorem accountRow_eq_of_sameIn {t : Transaction} (ht : t ∈ db.transactions) (horg : t.orgId = o)
    {id : Option Uuid} (hid : id = t.sourceAccountId ∨ id = t.destAccountId) :
    accountRow id db = accountRow id db' := by
  rcases h.accounts t ht id hid with rfl | ⟨a, ha, haorg⟩
  · rfl
  · rw [ha]
    obtain ⟨i, rfl, hrow⟩ := Option.bind_eq_some_iff.1 ha
    obtain rfl := Table.key_of_get? hrow
    have hmem := (hsame.accounts a (haorg.trans horg)).1 (Table.mem_of_get? hrow)
    exact (Table.get?_of_mem hmem).symm

include h'

/-- The entries of a transaction of the organization are the same. -/
theorem entries_eq_of_sameIn {t : Transaction} (ht : t ∈ db.transactions) (horg : t.orgId = o) :
    (db.ledgerEntries.bag.filter fun e => e.transactionId = t.id) =
      db'.ledgerEntries.bag.filter fun e => e.transactionId = t.id := by
  refine Table.filter_bag_congr fun e he => ?_
  have ht' : t ∈ db'.transactions := (hsame.transactions t horg).1 ht
  have hentry : ∀ {db : Db}, SharesOrganization db → t ∈ db.transactions → e ∈ db.ledgerEntries →
      e.orgId = o := by
    intro db h ht hmem
    obtain ⟨t', ht', hid, horg'⟩ := h.entries e hmem
    obtain rfl : t' = t := Table.eq_of_key_eq ht' ht (hid.trans he)
    exact horg'.symm.trans horg
  constructor
  · exact fun hmem => (hsame.ledgerEntries e (hentry h ht hmem)).1 hmem
  · exact fun hmem => (hsame.ledgerEntries e (hentry h' ht' hmem)).2 hmem

end

/-- What a fixed order sorts is what it is given. -/
theorem FixedOrder.mem_sort {α : Type} {createdAt : α → Timestamp} (order : FixedOrder α createdAt)
    {s : Multiset α} {a : α} : a ∈ order.sort s ↔ a ∈ s := by
  rw [← Multiset.mem_coe, order.perm]

section

variable {o : Uuid} {db db' : Db} (h : SharesOrganization db) (h' : SharesOrganization db')
  (hsame : db.SameIn o db') {ctx : Context} (hclaim : authOrgId ctx = some o)

include hsame hclaim

theorem accounts_congr {p : Account → Prop} [DecidablePred p] :
    (db.accounts.bag.filter fun a => authOrgId ctx = some a.orgId ∧ p a) =
      db'.accounts.bag.filter fun a => authOrgId ctx = some a.orgId ∧ p a := by
  refine Table.filter_bag_congr fun a ha => hsame.accounts a ?_
  exact (Option.some.inj (hclaim.symm.trans ha.1)).symm

theorem transactions_congr {p : Transaction → Prop} [DecidablePred p] :
    (db.transactions.bag.filter fun t => authOrgId ctx = some t.orgId ∧ p t) =
      db'.transactions.bag.filter fun t => authOrgId ctx = some t.orgId ∧ p t := by
  refine Table.filter_bag_congr fun t ht => hsame.transactions t ?_
  exact (Option.some.inj (hclaim.symm.trans ht.1)).symm

theorem ledgerView_congr : ledgerView ctx db = ledgerView ctx db' := by
  rw [ledgerView, ledgerView]
  refine congrArg _ (Table.filter_bag_congr fun e he => hsame.ledgerEntries e ?_)
  exact (Option.some.inj (hclaim.symm.trans he.1)).symm

include h

/-- The accounts of a selected transaction are the same. -/
theorem accountRow_congr {t : Transaction} (ht : t ∈ db.transactions)
    (horg : authOrgId ctx = some t.orgId) :
    accountRow t.sourceAccountId db = accountRow t.sourceAccountId db' ∧
      accountRow t.destAccountId db = accountRow t.destAccountId db' := by
  have horg : t.orgId = o := (Option.some.inj (hclaim.symm.trans horg)).symm
  exact ⟨accountRow_eq_of_sameIn h hsame ht horg (Or.inl rfl),
    accountRow_eq_of_sameIn h hsame ht horg (Or.inr rfl)⟩

theorem listTransactions_congr (order : FixedOrder Transaction Transaction.createdAt)
    (status : Option TransactionStatus) (type : Option TransactionType)
    (limit offset : Option Int4) :
    listTransactions order ctx status type limit offset db =
      listTransactions order ctx status type limit offset db' := by
  rw [listTransactions, listTransactions, transactions_congr hsame hclaim]
  refine congrArg _ (List.map_congr_left fun t ht => ?_)
  rw [order.mem_sort, ← transactions_congr hsame hclaim, Multiset.mem_filter] at ht
  obtain ⟨hsource, hdest⟩ := accountRow_congr h hsame hclaim ht.1 ht.2.1
  simp only [accountName, hsource, hdest]

theorem transactionSummary_congr : transactionSummary ctx db = transactionSummary ctx db' := by
  have hrows : (db.transactions.bag.filter fun t => authOrgId ctx = some t.orgId) =
      db'.transactions.bag.filter fun t => authOrgId ctx = some t.orgId := by
    refine Table.filter_bag_congr fun t ht => hsame.transactions t ?_
    exact (Option.some.inj (hclaim.symm.trans ht)).symm
  rw [transactionSummary, transactionSummary, ← hrows]
  refine Multiset.map_congr rfl fun t ht => ?_
  obtain ⟨hmem, horg⟩ := Multiset.mem_filter.1 ht
  obtain ⟨hsource, hdest⟩ := accountRow_congr h hsame hclaim hmem horg
  simp only [accountName, hsource, hdest]

include h'

theorem getTransaction_congr (id : Option Uuid) :
    getTransaction ctx id db = getTransaction ctx id db' := by
  have hrow : ∀ {db db' : Db}, db.SameIn o db' → ∀ {t},
      (id.bind db.transactions.get?).filter (fun t => decide (authOrgId ctx = some t.orgId)) =
        some t →
      (id.bind db'.transactions.get?).filter (fun t => decide (authOrgId ctx = some t.orgId)) =
        some t := by
    intro db db' hsame t ht
    obtain ⟨hget, horg⟩ := Option.filter_eq_some_iff.1 ht
    obtain ⟨i, rfl, hget⟩ := Option.bind_eq_some_iff.1 hget
    obtain rfl := Table.key_of_get? hget
    have ho : t.orgId = o := (Option.some.inj (hclaim.symm.trans (of_decide_eq_true horg))).symm
    refine Option.filter_eq_some_iff.2 ⟨?_, horg⟩
    exact Table.get?_of_mem ((hsame.transactions t ho).1 (Table.mem_of_get? hget))
  rw [getTransaction, getTransaction]
  cases hfound : (id.bind db.transactions.get?).filter
      fun t => decide (authOrgId ctx = some t.orgId) with
  | none =>
    have hnone : (id.bind db'.transactions.get?).filter
        (fun t => decide (authOrgId ctx = some t.orgId)) = none := by
      refine Option.eq_none_iff_forall_ne_some.2 fun t ht => ?_
      rw [hrow hsame.symm ht] at hfound
      cases hfound
    rw [hnone]
  | some t =>
    obtain ⟨hget, horg⟩ := Option.filter_eq_some_iff.1 hfound
    obtain ⟨i, rfl, hget⟩ := Option.bind_eq_some_iff.1 hget
    have hmem : t ∈ db.transactions := Table.mem_of_get? hget
    have horg := of_decide_eq_true horg
    obtain ⟨hsource, hdest⟩ := accountRow_congr h hsame hclaim hmem horg
    have hentries := entries_eq_of_sameIn h h' hsame hmem
      (Option.some.inj (hclaim.symm.trans horg)).symm
    rw [hrow hsame hfound]
    simp only [accountReference, hsource, hdest, hentries]

end

/-- **Isolation.**  Two states that are reached by any calls of `create_account`
and `process_transaction` and have the same rows of an organization look the same
to every caller who claims the organization. -/
theorem readers_isolated {o : Uuid} {db₀ db₀' db db' : Db}
    (h : Reach (Deterministic RpcCall.step) Always db₀.beforeAccounts db)
    (h' : Reach (Deterministic RpcCall.step) Always db₀'.beforeAccounts db')
    (hsame : db.SameIn o db') {ctx : Context} (hclaim : authOrgId ctx = some o) :
    (∀ order type status, listAccounts order ctx type status db =
      listAccounts order ctx type status db') ∧
    (∀ order status type limit offset, listTransactions order ctx status type limit offset db =
      listTransactions order ctx status type limit offset db') ∧
    (∀ id, getTransaction ctx id db = getTransaction ctx id db') ∧
    ledgerView ctx db = ledgerView ctx db' ∧
    accountBalances ctx db = accountBalances ctx db' ∧
    transactionSummary ctx db = transactionSummary ctx db' := by
  have hshares := SharesOrganization.of_reach h
  have hshares' := SharesOrganization.of_reach h'
  refine ⟨fun order type status => ?_, ?_, ?_, ledgerView_congr hsame hclaim, ?_, ?_⟩
  · rw [listAccounts, listAccounts, accounts_congr hsame hclaim]
  · exact fun order => listTransactions_congr hshares hsame hclaim order
  · exact getTransaction_congr hshares hshares' hsame hclaim
  · rw [accountBalances, accountBalances, accounts_congr hsame hclaim]
  · exact transactionSummary_congr hshares hsame hclaim

/-- The theorem at work: the organization `2`, which has no accounts, before and
after ten dollars have moved in the organization `1`. -/
theorem readers_isolated_transfer :
    let calls := RpcCall.openings ++ [RpcCall.transfer 300 10 100 (some 200)]
    let db := calls.foldl RpcCall.step Db.starter.beforeAccounts
    let ctx := Context.plain true 9 2 0 400
    ledgerView ctx Db.starter.beforeAccounts = ledgerView ctx db := by
  intro calls db ctx
  have hother : (db.accounts.rows.all (fun a => decide (a.orgId = 1)) &&
      db.transactions.rows.all (fun t => decide (t.orgId = 1)) &&
      db.ledgerEntries.rows.all (fun e => decide (e.orgId = 1))) = true := by
    decide +kernel
  simp only [Bool.and_eq_true, List.all_eq_true, decide_eq_true_eq] at hother
  obtain ⟨⟨haccounts, htransactions⟩, hentries⟩ := hother
  have hne : (1 : Uuid) ≠ 2 := by decide
  have hsame : Db.starter.beforeAccounts.SameIn 2 db := by
    refine ⟨fun a ha => ?_, fun t ht => ?_, fun e he => ?_⟩
    · exact ⟨fun h => (nomatch h), fun h => absurd ((haccounts a h).symm.trans ha) hne⟩
    · exact ⟨fun h => (nomatch h), fun h => absurd ((htransactions t h).symm.trans ht) hne⟩
    · exact ⟨fun h => (nomatch h), fun h => absurd ((hentries e h).symm.trans he) hne⟩
  have hreach : Reach (Deterministic RpcCall.step) Always Db.starter.beforeAccounts db :=
    reach_foldl RpcCall.step (fun _ _ _ => trivial) _
  have hclaim : authOrgId ctx = some 2 := rfl
  exact (readers_isolated .start hreach hsame hclaim).2.2.2.1

end EnterpriseSystem
