import EnterpriseSystem.Base.Paging
import EnterpriseSystem.Database.AuditVisibility

/-!
# Paging through the RPCs

A client of `list_transactions` or `list_audit_logs` asks for the rows at the
offsets `0`, `p_limit`, `2 * p_limit`, … until a page is empty.  The functions
answer with at most `100` (`200`) rows, whatever the limit, and sort by
`created_at` alone, so that each query may order equal times in its own way.

* `Complete` — the pages give every matching row once.
* `Pageable` — no page is cut short, no two rows of one time lie on both sides
  of a boundary between pages, and every offset is an `INTEGER`.
* `complete_iff` — for all orders the pages are complete exactly when the rows
  are pageable; `rpcsComplete_iff` says so of the two functions.
* `not_rpcsComplete` — rows of one time, and a limit that is cut.
-/

namespace EnterpriseSystem

open Relational Concurrency Paging

/-! ## What a client gets -/

/-- The pages at the offsets `0`, `limit`, `2 * limit`, … up to the first empty one
give the rows, once each. -/
def Complete {ρ : Type} (fetch : ℕ → Int4 → Except ReadError (List ρ)) (limit : Int4)
    (rows : Multiset ρ) : Prop :=
  ∃ pages : List (List ρ), (∀ page ∈ pages, page ≠ []) ∧
    (∀ k ≤ pages.length, ∃ offset : Int4, offset.1 = k * limit.1 ∧
      fetch k offset = .ok (pages.getD k [])) ∧
    (pages.flatten : Multiset ρ) = rows

/-- What keeps the pages of `size` rows complete. -/
structure Pageable {α : Type} (createdAt : α → Timestamp) (cap size : ℕ) (s : Multiset α) :
    Prop where
  reachable : pageCount size s.card * size < 2 ^ 31
  uncut : size ≤ cap ∨ s.card ≤ cap
  unsplit : ∀ k, ¬ Splits createdAt s (k * size)

section

variable {α ρ : Type} {createdAt : α → Timestamp} {f : α → ρ} {s : Multiset α} {cap size : ℕ}
  {limit : Int4}

/-- One query. -/
theorem page_map (hlimit : limit.1 = size) {offset : Int4} {k : ℕ}
    (hoffset : offset.1 = k * limit.1) (l : List α) :
    page cap (some limit) (some offset) (l.map f) = .ok ((pageOf size cap k l).map f) := by
  rw [hlimit] at hoffset
  have hskip : ¬ ((k : ℤ) * size < 0) := not_lt.2 (by positivity)
  have hcount : ¬ (min (size : ℤ) cap < 0) := by omega
  have hdrop : ((k : ℤ) * size).toNat = k * size := by
    rw [← Nat.cast_mul]
    exact Int.toNat_natCast _
  have htake : (min (size : ℤ) cap).toNat = min size cap := by omega
  simp [page, hoffset, hlimit, hskip, hcount, hdrop, htake, pageOf, List.map_take, List.map_drop]

/-- An offset that is asked for is an `INTEGER`. -/
theorem exists_offset (hlimit : limit.1 = size) {k m : ℕ} (hk : k ≤ m)
    (hm : m * size < 2 ^ 31) : ∃ offset : Int4, offset.1 = k * limit.1 := by
  have hle : k * size ≤ m * size := Nat.mul_le_mul_right size hk
  have hcast : ((k * size : ℕ) : ℤ) = k * limit.1 := by rw [hlimit, Nat.cast_mul]
  refine ⟨⟨(k * size : ℕ), ?_, ?_⟩, hcast⟩
  · omega
  · omega

/-- The pages up to the first empty one are those that the rows fill. -/
theorem complete_page_iff (hlimit : limit.1 = size) (hsize : 0 < size) (hcap : 0 < cap)
    (hnodup : (s.map f).Nodup) {lists : ℕ → List α} (hlists : ∀ k, (lists k : Multiset α) = s) :
    Complete (fun k offset => page cap (some limit) (some offset) ((lists k).map f)) limit
        (s.map f) ↔
      pageCount size s.card * size < 2 ^ 31 ∧ collected size cap (pageCount size s.card) lists = s := by
  have hempty : ∀ k, (pageOf size cap k (lists k)).map f = [] ↔ ¬ k < pageCount size s.card := by
    intro k
    rw [List.map_eq_nil_iff, pageOf_eq_nil_iff hsize hcap, lt_pageCount_iff hsize, ← hlists k,
      Multiset.coe_card]
  constructor
  · rintro ⟨pages, hne, hfetch, hrows⟩
    have hpage : ∀ k ≤ pages.length, pages.getD k [] = (pageOf size cap k (lists k)).map f := by
      intro k hk
      obtain ⟨offset, hoffset, hok⟩ := hfetch k hk
      have heq := (page_map hlimit hoffset (lists k)).symm.trans hok
      exact (Except.ok.inj heq).symm
    -- the page behind the last one is empty, and no other page is
    have hlength : pages.length = pageCount size s.card := by
      have hlast := hpage pages.length le_rfl
      rw [List.getD_eq_default _ _ le_rfl] at hlast
      have hge := (hempty _).1 hlast.symm
      refine le_antisymm (not_lt.1 fun hlt => ?_) (not_lt.1 hge)
      have hthere := hpage _ hlt.le
      rw [List.getD_eq_getElem _ _ hlt, (hempty _).2 (lt_irrefl _)] at hthere
      exact hne _ (List.getElem_mem hlt) hthere
    have hpages : pages = (List.range (pageCount size s.card)).map fun k =>
        (pageOf size cap k (lists k)).map f := by
      refine List.ext_getElem (by simp [hlength]) fun k hk hk' => ?_
      rw [← List.getD_eq_getElem _ [] hk, hpage k hk.le, List.getElem_map, List.getElem_range]
    obtain ⟨offset, hoffset, -⟩ := hfetch _ le_rfl
    refine ⟨?_, eq_of_map_eq hnodup (fun a => mem_of_mem_collected hlists) ?_⟩
    · have hbound := offset.2.2
      rw [hoffset, hlimit, hlength] at hbound
      exact_mod_cast hbound
    · rw [← coe_flatten_pages, ← hpages, hrows]
  · rintro ⟨hreach, hcollected⟩
    refine ⟨(List.range (pageCount size s.card)).map fun k => (pageOf size cap k (lists k)).map f,
      fun page hpage => ?_, fun k hk => ?_, ?_⟩
    · obtain ⟨k, hk, rfl⟩ := List.mem_map.1 hpage
      exact fun hnil => (hempty k).1 hnil (List.mem_range.1 hk)
    · rw [List.length_map, List.length_range] at hk
      obtain ⟨offset, hoffset⟩ := exists_offset hlimit hk hreach
      refine ⟨offset, hoffset, (page_map hlimit hoffset (lists k)).trans (congrArg _ ?_)⟩
      rcases Nat.lt_or_ge k (pageCount size s.card) with hlt | hge
      · simp [List.getD_eq_getElem?_getD, hlt]
      · simp [List.getD_eq_getElem?_getD, hge, (hempty k).2 (not_lt.2 hge)]
    · rw [coe_flatten_pages, hcollected]

open Classical in
/-- An order that gives the rows in the order of a list. -/
noncomputable def FixedOrder.giving {l : List α} (h : Listing createdAt s l) :
    FixedOrder α createdAt where
  sort t := if t = s then l else (FixedOrder.any createdAt).sort t
  perm t := by
    split
    · rename_i heq
      rw [h.perm, heq]
    · exact (FixedOrder.any createdAt).perm t
  sorted t := by
    split
    · exact h.sorted
    · exact (FixedOrder.any createdAt).sorted t

theorem FixedOrder.sort_giving {l : List α} (h : Listing createdAt s l) :
    (FixedOrder.giving h).sort s = l := if_pos rfl

theorem FixedOrder.listing (order : FixedOrder α createdAt) (s : Multiset α) :
    Listing createdAt s (order.sort s) := ⟨order.perm s, order.sorted s⟩

/-- **The pages are complete for all orders of the queries** exactly when the rows are
pageable. -/
theorem complete_iff (hlimit : limit.1 = size) (hsize : 0 < size) (hcap : 0 < cap)
    (hnodup : (s.map f).Nodup) :
    (∀ orders : ℕ → FixedOrder α createdAt,
      Complete (fun k offset => page cap (some limit) (some offset) (((orders k).sort s).map f))
        limit (s.map f)) ↔
      Pageable createdAt cap size s := by
  classical
  have hpages : (∀ lists : ℕ → List α, (∀ k, Listing createdAt s (lists k)) →
      collected size cap (pageCount size s.card) lists = s) ↔
        (size ≤ cap ∨ s.card ≤ cap) ∧ ∀ k, ¬ Splits createdAt s (k * size) :=
    collected_eq_iff (Multiset.Nodup.of_map f hnodup) fun _ => lt_pageCount_iff hsize
  constructor
  · intro h
    have hparts : ∀ lists : ℕ → List α, (∀ k, Listing createdAt s (lists k)) →
        pageCount size s.card * size < 2 ^ 31 ∧
          collected size cap (pageCount size s.card) lists = s := by
      intro lists hlists
      have horders := h fun k => FixedOrder.giving (hlists k)
      simp only [FixedOrder.sort_giving] at horders
      exact (complete_page_iff hlimit hsize hcap hnodup fun k => (hlists k).perm).1 horders
    obtain ⟨l, hl⟩ := exists_listing createdAt s
    obtain ⟨huncut, hunsplit⟩ := hpages.1 fun lists hlists => (hparts lists hlists).2
    exact ⟨(hparts (fun _ => l) fun _ => hl).1, huncut, hunsplit⟩
  · rintro ⟨hreach, huncut, hunsplit⟩ orders
    have hlists := fun k => (orders k).listing s
    exact (complete_page_iff hlimit hsize hcap hnodup fun k => (orders k).perm s).2
      ⟨hreach, hpages.2 ⟨huncut, hunsplit⟩ _ hlists⟩

end

/-! ## The two functions -/

section

variable (ctx : Context)

/-- The transactions of the caller's organization that `list_transactions` selects. -/
def matchingTransactions (status : Option TransactionStatus) (type : Option TransactionType)
    (db : Db) : Multiset Transaction :=
  db.transactions.bag.filter fun t => authOrgId ctx = some t.orgId ∧
    matchesFilter status t.status ∧ matchesFilter type t.type

/-- A transaction as `list_transactions` shows it. -/
def Transaction.listed (db : Db) (t : Transaction) : TransactionRow where
  id := t.id
  type := t.type
  status := t.status
  amount := t.amount.1
  currency := t.currency
  sourceAccountName := accountName t.sourceAccountId db
  destAccountName := accountName t.destAccountId db
  description := t.description
  createdAt := t.createdAt
  processedAt := t.processedAt

/-- The entries of the audit log that `list_audit_logs` selects: those of members of the
caller's organization. -/
def matchingAuditLogs (tableName : Option String) (action : Option AuditAction) (db : Db) :
    Multiset AuditEntry :=
  match authOrgId ctx with
  | none => 0
  | some o => db.auditLog.bag.filter fun e => matchesFilter tableName e.tableName ∧
      matchesFilter action e.action ∧ actorIsMember o db e

/-- Paging through `list_transactions` gives every matching row once, for every order of
equal times in each query. -/
def TransactionsComplete (status : Option TransactionStatus) (type : Option TransactionType)
    (limit : Int4) (db : Db) : Prop :=
  ∀ orders : ℕ → FixedOrder Transaction Transaction.createdAt,
    Complete (fun k offset =>
        listTransactions (orders k) ctx status type (some limit) (some offset) db)
      limit ((matchingTransactions ctx status type db).map (Transaction.listed db))

/-- Paging through `list_audit_logs` gives every matching row once, for every order of
equal times in each query. -/
def AuditLogsComplete (tableName : Option String) (action : Option AuditAction) (limit : Int4)
    (db : Db) : Prop :=
  ∀ orders : ℕ → FixedOrder AuditEntry AuditEntry.createdAt,
    Complete (fun k offset =>
        listAuditLogs (orders k) ctx tableName action (some limit) (some offset) db)
      limit ((matchingAuditLogs ctx tableName action db).map AuditEntry.listed)

/-- The caller is an active owner or admin of the organization in the claim. -/
def MayViewAuditLogs (db : Db) : Prop :=
  ∃ uid, authUid ctx = .ok uid ∧ auditedOrganization ctx uid db ≠ none

end

section

variable {ctx : Context} {db : Db} {limit : Int4}

/-- The rows that are shown differ in their identifiers. -/
theorem nodup_map_of_id {α ρ : Type} {key : α → Uuid} {t : Table key} {s : Multiset α}
    (hs : s ≤ t.bag) {f : α → ρ} (id : ρ → Uuid) (hid : id ∘ f = key) : (s.map f).Nodup := by
  have hkeys : (s.map key).Nodup :=
    Multiset.nodup_of_le (Multiset.map_le_map hs) (Multiset.coe_nodup.2 t.nodup)
  refine Multiset.Nodup.of_map id ?_
  rwa [Multiset.map_map, hid]

theorem nat_of_limit (hlimit : 1 ≤ limit.1) :
    limit.1 = limit.1.toNat ∧ 0 < limit.1.toNat := by
  omega

theorem transactionsComplete_iff (hlimit : 1 ≤ limit.1) (status : Option TransactionStatus)
    (type : Option TransactionType) :
    TransactionsComplete ctx status type limit db ↔
      Pageable Transaction.createdAt 100 limit.1.toNat
        (matchingTransactions ctx status type db) := by
  obtain ⟨hnat, hpos⟩ := nat_of_limit hlimit
  exact complete_iff hnat hpos (by decide) (nodup_map_of_id (t := db.transactions)
    (Multiset.filter_le _ _) TransactionRow.id rfl)

/-- The organization a reader of the audit log is let into is the one in the claim. -/
theorem auditedOrganization_eq_some {uid o : Uuid} (h : auditedOrganization ctx uid db = some o) :
    authOrgId ctx = some o := by
  obtain ⟨m, hm, rfl⟩ := Option.map_eq_some_iff.1 h
  obtain ⟨hrow, -⟩ := Option.filter_eq_some_iff.1 hm
  obtain ⟨o, ho, hget⟩ := Option.bind_eq_some_iff.1 hrow
  have horg : m.orgId = o := (Prod.ext_iff.1 (Table.key_of_get? hget)).1
  rw [ho, horg]

theorem matchingAuditLogs_eq {o : Uuid} (h : authOrgId ctx = some o) (tableName : Option String)
    (action : Option AuditAction) :
    matchingAuditLogs ctx tableName action db =
      db.auditLog.bag.filter fun e => matchesFilter tableName e.tableName ∧
        matchesFilter action e.action ∧ actorIsMember o db e := by
  rw [matchingAuditLogs, h]

/-- Who may not read the audit log gets no page of it. -/
theorem mayViewAuditLogs_of_ok {order : FixedOrder AuditEntry AuditEntry.createdAt}
    {tableName : Option String} {action : Option AuditAction} {limit offset : Option Int4}
    {rows : List AuditLogRow}
    (h : listAuditLogs order ctx tableName action limit offset db = .ok rows) :
    MayViewAuditLogs ctx db := by
  rw [listAuditLogs] at h
  cases huid : authUid ctx with
  | error e => rw [huid] at h; cases h
  | ok uid =>
    refine ⟨uid, huid, fun hnone => ?_⟩
    rw [huid] at h
    simp only [Except.mapError, bind, Except.bind, hnone] at h
    cases h

theorem auditLogsComplete_iff (hlimit : 1 ≤ limit.1) (tableName : Option String)
    (action : Option AuditAction) :
    AuditLogsComplete ctx tableName action limit db ↔ MayViewAuditLogs ctx db ∧
      Pageable AuditEntry.createdAt 200 limit.1.toNat
        (matchingAuditLogs ctx tableName action db) := by
  obtain ⟨hnat, hpos⟩ := nat_of_limit hlimit
  by_cases hmay : MayViewAuditLogs ctx db
  · rw [and_iff_right hmay]
    obtain ⟨uid, huid, hsome⟩ := hmay
    obtain ⟨o, ho⟩ := Option.ne_none_iff_exists'.1 hsome
    have hsub : ctx.session.sub = some uid := by
      rw [authUid] at huid
      split at huid
      · rename_i hsub
        rw [hsub, Except.ok.inj huid]
      · cases huid
    rw [AuditLogsComplete, matchingAuditLogs_eq (auditedOrganization_eq_some ho)]
    simp only [listAuditLogs_eq hsub ho]
    exact complete_iff hnat hpos (by decide) (nodup_map_of_id (t := db.auditLog)
      (Multiset.filter_le _ _) AuditLogRow.id rfl)
  · refine iff_of_false (fun h => ?_) fun h => hmay h.1
    obtain ⟨pages, -, hfetch, -⟩ := h fun _ => FixedOrder.any _
    obtain ⟨offset, -, hok⟩ := hfetch 0 (Nat.zero_le _)
    exact hmay (mayViewAuditLogs_of_ok hok)

end

/-- **Paging through the functions is complete**, for every order of equal times in each
query, exactly when the matching rows are pageable and, for the audit log, the caller
may view it. -/
theorem rpcsComplete_iff {limit : Int4} (hlimit : 1 ≤ limit.1) (ctx : Context) (db : Db) :
    (∀ status type, TransactionsComplete ctx status type limit db ↔
      Pageable Transaction.createdAt 100 limit.1.toNat
        (matchingTransactions ctx status type db)) ∧
    ∀ tableName action, AuditLogsComplete ctx tableName action limit db ↔
      MayViewAuditLogs ctx db ∧ Pageable AuditEntry.createdAt 200 limit.1.toNat
        (matchingAuditLogs ctx tableName action db) :=
  ⟨fun status type => transactionsComplete_iff hlimit status type,
    fun tableName action => auditLogsComplete_iff hlimit tableName action⟩

/-! ## Two tables that are not -/

/-- A transaction of the organization `1`. -/
def Transaction.plain (id : Uuid) (createdAt : Timestamp) : Transaction where
  id := id
  orgId := 1
  type := .transfer
  status := .completed
  amount := ⟨.units 100000 (by decide), by decide +kernel⟩
  currency := "USD"
  sourceAccountId := none
  destAccountId := none
  idempotencyKey := none
  description := none
  metadata := emptyMetadata
  processedAt := some createdAt
  failedAt := none
  failureReason := none
  reversedAt := none
  createdAt := createdAt
  updatedAt := createdAt
  createdBy := none
  differentAccounts := Or.inl rfl

/-- An entry of the user `7`. -/
def AuditEntry.plain (id : Uuid) (createdAt : Timestamp) : AuditEntry where
  id := id
  actorId := some 7
  actorEmail := none
  actorIp := none
  actorRole := none
  action := .create
  tableName := "transactions"
  recordId := some id
  oldData := none
  newData := none
  changedFields := none
  requestId := none
  correlationId := none
  rowHash := ""
  prevHash := none
  createdAt := createdAt

/-- The organization `1` with its owner `7`, `n` transactions and as many entries in the
audit log, written at the times `time 0`, `time 1` and so on. -/
def Db.withHistory (n : ℕ) (time : ℕ → Timestamp) : Db :=
  { Db.starter with
    organizationMembers := Db.starter.organizationMembers.put (.plain 50 1 7 .owner)
    transactions := (List.range n).foldl
      (fun t i => t.put (.plain (BitVec.ofNat 128 i) (time i))) Db.starter.transactions
    auditLog := (List.range n).foldl
      (fun t i => t.put (.plain (BitVec.ofNat 128 i) (time i))) Db.starter.auditLog }

/-- The theorem at work: pages of 20 rows. -/
theorem rpcsComplete_iff_history :
    (∀ status type, TransactionsComplete (.plain true 7 1 0 200) status type ⟨20, by decide⟩
        (.withHistory 30 Nat.cast) ↔
      Pageable Transaction.createdAt 100 20
        (matchingTransactions (.plain true 7 1 0 200) status type (.withHistory 30 Nat.cast))) ∧
    ∀ tableName action, AuditLogsComplete (.plain true 7 1 0 200) tableName action ⟨20, by decide⟩
        (.withHistory 30 Nat.cast) ↔
      MayViewAuditLogs (.plain true 7 1 0 200) (.withHistory 30 Nat.cast) ∧
        Pageable AuditEntry.createdAt 200 20
          (matchingAuditLogs (.plain true 7 1 0 200) tableName action
            (.withHistory 30 Nat.cast)) :=
  rpcsComplete_iff (by decide) _ _

/-- **Two ways to lose a row.**  With two rows of one time and pages of one row, and with
a limit of `101` (`201`) and as many rows, there are orders for which the pages are not
complete. -/
theorem not_rpcsComplete :
    ¬ TransactionsComplete (.plain true 7 1 0 200) none none ⟨1, by decide⟩
        (.withHistory 2 fun _ => 0) ∧
    ¬ TransactionsComplete (.plain true 7 1 0 200) none none ⟨101, by decide⟩
        (.withHistory 101 Nat.cast) ∧
    ¬ AuditLogsComplete (.plain true 7 1 0 200) none none ⟨1, by decide⟩
        (.withHistory 2 fun _ => 0) ∧
    ¬ AuditLogsComplete (.plain true 7 1 0 200) none none ⟨201, by decide⟩
        (.withHistory 201 Nat.cast) := by
  refine ⟨fun h => ?_, fun h => ?_, fun h => ?_, fun h => ?_⟩
  · exact ((transactionsComplete_iff (by decide) none none).1 h).unsplit 1 (by decide +kernel)
  · exact absurd ((transactionsComplete_iff (by decide) none none).1 h).uncut (by decide +kernel)
  · exact ((auditLogsComplete_iff (by decide) none none).1 h).2.unsplit 1 (by decide +kernel)
  · exact absurd ((auditLogsComplete_iff (by decide) none none).1 h).2.uncut (by decide +kernel)

end EnterpriseSystem
