import EnterpriseSystem.Base.TwoRuns
import EnterpriseSystem.Database.OwnWrites
import EnterpriseSystem.Database.Progress

/-!
# A transfer on two states

Two states that have the same rows of one organization, and calls of
`process_transaction` in that organization on both.  Statement by statement the
calls do the same, as far as an onlooker can tell who need not see all that is
written to the logs.

* `Db.SameTenant` — the two states have the same rows of the organization.
* `Conceals` — an onlooker who sees every row a call writes, but of the logs
  nothing that depends on the rows of others.
* `Alike` — two calls have come to the same point.
* `related_postTransfer` — the writes of a transfer, from the one point of them
  that looks at other organizations: whether the idempotency key is taken.
-/

namespace EnterpriseSystem

open Relational Concurrency

/-! ## The rows of an organization -/

/-- The two states have the same rows of an organization: its accounts, its
transactions, its members and its bucket of transfers. -/
structure Db.SameTenant (o : Uuid) (db db' : Db) : Prop where
  accounts : ∀ a : Account, a.orgId = o → (a ∈ db.accounts ↔ a ∈ db'.accounts)
  transactions : ∀ t : Transaction, t.orgId = o → (t ∈ db.transactions ↔ t ∈ db'.transactions)
  organizationMembers : ∀ m : OrganizationMember, m.orgId = o →
    (m ∈ db.organizationMembers ↔ m ∈ db'.organizationMembers)
  rateLimit : db.rateLimits.get? ("txn:" ++ formatUuid (some o)) =
    db'.rateLimits.get? ("txn:" ++ formatUuid (some o))

/-- A row of the logs. -/
def Write.IsLog : Write → Prop
  | .auditEntry _ => True
  | .securityEvent _ => True
  | _ => False

instance : DecidablePred Write.IsLog
  | .auditEntry _ | .securityEvent _ => .isTrue trivial
  | .organizationMember _ | .account _ | .transaction _ | .ledgerEntry _ | .rateLimit _ => .isFalse id

namespace Db.SameTenant

variable {o : Uuid} {db db' db'' : Db}

theorem refl (o : Uuid) (db : Db) : db.SameTenant o db :=
  ⟨fun _ _ => Iff.rfl, fun _ _ => Iff.rfl, fun _ _ => Iff.rfl, rfl⟩

theorem symm (h : db.SameTenant o db') : db'.SameTenant o db :=
  ⟨fun a ha => (h.accounts a ha).symm, fun t ht => (h.transactions t ht).symm,
    fun m hm => (h.organizationMembers m hm).symm, h.rateLimit.symm⟩

theorem trans (h : db.SameTenant o db') (h' : db'.SameTenant o db'') : db.SameTenant o db'' :=
  ⟨fun a ha => (h.accounts a ha).trans (h'.accounts a ha),
    fun t ht => (h.transactions t ht).trans (h'.transactions t ht),
    fun m hm => (h.organizationMembers m hm).trans (h'.organizationMembers m hm),
    h.rateLimit.trans h'.rateLimit⟩

/-- The logs are nobody's. -/
theorem log (db : Db) {w : Write} (hw : w.IsLog) : (db.apply w).SameTenant o db := by
  cases w with
  | auditEntry | securityEvent =>
    exact ⟨fun _ _ => Iff.rfl, fun _ _ => Iff.rfl, fun _ _ => Iff.rfl, rfl⟩
  | organizationMember | account | transaction | ledgerEntry | rateLimit => exact hw.elim

/-- Writing the same row keeps the rows the same. -/
theorem apply (h : db.SameTenant o db') (w : Write) :
    (db.apply w).SameTenant o (db'.apply w) := by
  cases w with
  | account a =>
    refine { h with accounts := fun b hb => ?_ }
    show b ∈ db.accounts.put a ↔ b ∈ db'.accounts.put a
    rw [Table.mem_put_iff, Table.mem_put_iff, h.accounts b hb]
  | transaction t =>
    refine { h with transactions := fun t' ht' => ?_ }
    show t' ∈ db.transactions.put t ↔ t' ∈ db'.transactions.put t
    rw [Table.mem_put_iff, Table.mem_put_iff, h.transactions t' ht']
  | organizationMember m =>
    refine { h with organizationMembers := fun m' hm' => ?_ }
    show m' ∈ db.organizationMembers.put m ↔ m' ∈ db'.organizationMembers.put m
    rw [Table.mem_put_iff, Table.mem_put_iff, h.organizationMembers m' hm']
  | rateLimit r =>
    refine { h with rateLimit := ?_ }
    show (db.rateLimits.put r).get? _ = (db'.rateLimits.put r).get? _
    rw [Table.get?_put, Table.get?_put, h.rateLimit]
  | ledgerEntry | auditEntry | securityEvent =>
    exact ⟨h.accounts, h.transactions, h.organizationMembers, h.rateLimit⟩

theorem view (h : db.SameTenant o db') (own : List Write) :
    (view Db.apply db own).SameTenant o (Concurrency.view Db.apply db' own) := by
  induction own generalizing db db' with
  | nil => exact h
  | cons w own ih => exact ih (h.apply w)

/-- What a call writes to the logs makes no difference. -/
theorem view_books (o : Uuid) (db : Db) (own : List Write) :
    (Concurrency.view Db.apply db own).SameTenant o
      (Concurrency.view Db.apply db (own.filter fun w => ¬ w.IsLog)) := by
  induction own generalizing db with
  | nil => exact refl o db
  | cons w own ih =>
    by_cases hw : w.IsLog
    · rw [List.filter_cons_of_neg (by simpa using hw)]
      exact ((log db hw).view own).trans (ih db)
    · rw [List.filter_cons_of_pos (by simpa using hw)]
      exact ih (db.apply w)

end Db.SameTenant

/-- The identifier names an account of the organization, or nothing. -/
def OwnAccount (o : Uuid) (id : Option Uuid) (db : Db) : Prop :=
  id = none ∨ ∃ a, accountRow id db = some a ∧ a.orgId = o

theorem OwnAccount.accountRow_eq {o : Uuid} {id : Option Uuid} {db db' : Db}
    (h : OwnAccount o id db) (hsame : db.SameTenant o db') :
    accountRow id db = accountRow id db' := by
  rcases h with rfl | ⟨a, ha, horg⟩
  · rfl
  · rw [ha]
    obtain ⟨i, rfl, hget⟩ := Option.bind_eq_some_iff.1 ha
    obtain rfl := Table.key_of_get? hget
    exact (Table.get?_of_mem ((hsame.accounts a horg).1 (Table.mem_of_get? hget))).symm

theorem OwnAccount.apply {o : Uuid} {id : Option Uuid} {db : Db} (h : OwnAccount o id db)
    {w : Write} (hw : ∀ a, w = .account a → a.orgId = o) : OwnAccount o id (db.apply w) := by
  rcases h with rfl | ⟨a, ha, horg⟩
  · exact Or.inl rfl
  · refine Or.inr ?_
    cases w with
    | account b =>
      obtain ⟨i, rfl, hget⟩ := Option.bind_eq_some_iff.1 ha
      by_cases hi : b.id = i
      · exact ⟨b, hi ▸ Table.get?_put_self _ b, hw b rfl⟩
      · exact ⟨a, (Table.get?_put_of_ne _ hi).trans hget, horg⟩
    | organizationMember | transaction | ledgerEntry | auditEntry | securityEvent | rateLimit =>
      exact ⟨a, ha, horg⟩

/-- An active account that is found belongs to the organization it is looked up
in. -/
theorem activeAccount_eq {o : Uuid} {id : Option Uuid} {db db' : Db}
    (hsame : db.SameTenant o db') : activeAccount (some o) id db = activeAccount (some o) id db' := by
  have key : ∀ {db db' : Db}, db.SameTenant o db' → ∀ a, activeAccount (some o) id db = some a →
      activeAccount (some o) id db' = some a := by
    intro db db' hsame a ha
    obtain ⟨hrow, horg, hactive⟩ := activeAccount_eq_some.1 ha
    have hown : OwnAccount o id db := Or.inr ⟨a, hrow, (Option.some.inj horg).symm⟩
    exact activeAccount_eq_some.2 ⟨hown.accountRow_eq hsame ▸ hrow, horg, hactive⟩
  refine Option.ext fun a => ⟨key hsame a, key hsame.symm a⟩

/-! ## An onlooker -/

/-- The hash `write_audit_log` chains a new row to. -/
def latestHash (ctx : Context) (db : Db) : Option String :=
  (ctx.server.latestFirst.sort db.auditLog.rows).head?.map (·.rowHash)

/-- An onlooker who sees what `see` leaves of a row: everything of a row that is
not in the logs, and of the logs nothing that differs between the two states. -/
structure Conceals (ctx : Context) (db db' : Db) (see : Write → Option Write) : Prop where
  books : ∀ w : Write, ¬ w.IsLog → see w = some w
  logs : ∀ w : Write, w.IsLog → ∀ w' ∈ see w, w'.IsLog
  audit : ∀ own own' : List Write, own.filterMap see = own'.filterMap see →
    ∀ uid id action tableName recordId oldData newData,
      see (.auditEntry (newAuditEntry ctx uid id action tableName recordId oldData newData
        (latestHash ctx (view Db.apply db own)))) =
      see (.auditEntry (newAuditEntry ctx uid id action tableName recordId oldData newData
        (latestHash ctx (view Db.apply db' own'))))
  alerts : ∀ own own' : List Write, own.filterMap see = own'.filterMap see →
    (∀ e, see (.securityEvent e) = none) ∨ ∀ uid tableName,
      recentOperations ctx uid tableName (view Db.apply db own) =
        recentOperations ctx uid tableName (view Db.apply db' own')

/-- Whoever sees the same writes sees the same books. -/
theorem Conceals.books_eq {ctx : Context} {db db' : Db} {see : Write → Option Write}
    (hsee : Conceals ctx db db' see) {own own' : List Write}
    (h : own.filterMap see = own'.filterMap see) :
    (own.filter fun w => ¬ w.IsLog) = own'.filter fun w => ¬ w.IsLog := by
  have key : ∀ own : List Write, ((own.filterMap see).filter fun w => ¬ w.IsLog) =
      own.filter fun w => ¬ w.IsLog := by
    intro own
    induction own with
    | nil => rfl
    | cons w own ih =>
      by_cases hw : w.IsLog
      · rw [List.filter_cons_of_neg (by simpa using hw)]
        cases hs : see w with
        | none => rw [List.filterMap_cons_none hs, ih]
        | some w' =>
          rw [List.filterMap_cons_some hs,
            List.filter_cons_of_neg (by simpa using hsee.logs w hw w' hs), ih]
      · rw [List.filterMap_cons_some (hsee.books w hw),
          List.filter_cons_of_pos (by simpa using hw),
          List.filter_cons_of_pos (by simpa using hw), ih]
  rw [← key own, ← key own', h]

/-! ## Two calls at the same point -/

/-- Two calls have written the same as far as is seen, the identifiers from the
`k`-th on are unused in what they see, and `ids` name accounts of the
organization. -/
structure Alike (ctx : Context) (o : Uuid) (db db' : Db) (see : Write → Option Write)
    (ids : List (Option Uuid)) (k : ℕ) (own own' : List Write) : Prop where
  seen : own.filterMap see = own'.filterMap see
  fresh : ctx.Fresh k (view Db.apply db own)
  fresh' : ctx.Fresh k (view Db.apply db' own')
  owned : ∀ id ∈ ids, OwnAccount o id (view Db.apply db own)

/-- Two calls return the same at the same point. -/
def Meet {α : Type} (ctx : Context) (o : Uuid) (db db' : Db) (see : Write → Option Write)
    (ids : List (Option Uuid)) (k : ℕ) (a a' : α) (own own' : List Write) : Prop :=
  a = a' ∧ Alike ctx o db db' see ids k own own'

section

variable {ctx : Context} {o : Uuid} {db db' : Db} {see : Write → Option Write}
  {ids : List (Option Uuid)} {k : ℕ} {own own' : List Write}

theorem view_concat (db : Db) (own : List Write) (w : Write) :
    view Db.apply db (own ++ [w]) = (view Db.apply db own).apply w := by
  rw [view_append]
  rfl

namespace Alike

/-- The next point is one where fewer identifiers are left. -/
theorem mono (h : Alike ctx o db db' see ids k own own') {k' : ℕ} (hk : k ≤ k') :
    Alike ctx o db db' see ids k' own own' :=
  ⟨h.seen, h.fresh.mono hk, h.fresh'.mono hk, h.owned⟩

theorem sameTenant (h : Alike ctx o db db' see ids k own own') (hsame : db.SameTenant o db')
    (hsee : Conceals ctx db db' see) :
    (view Db.apply db own).SameTenant o (view Db.apply db' own') := by
  have hbooks := Db.SameTenant.view_books o db' own'
  rw [← hsee.books_eq h.seen] at hbooks
  exact ((Db.SameTenant.view_books o db own).trans (hsame.view _)).trans hbooks.symm

theorem accountRow_eq (h : Alike ctx o db db' see ids k own own') (hsame : db.SameTenant o db')
    (hsee : Conceals ctx db db' see) {id : Option Uuid} (hid : id ∈ ids) :
    accountRow id (view Db.apply db own) = accountRow id (view Db.apply db' own') :=
  (h.owned id hid).accountRow_eq (h.sameTenant hsame hsee)

/-- Both calls write a row that looks the same. -/
theorem append (h : Alike ctx o db db' see ids k own own') {w w' : Write} (hw : see w = see w')
    (haccount : ∀ a, w = .account a → a.orgId = o) {k' : ℕ}
    (hfresh : ctx.Fresh k' ((view Db.apply db own).apply w))
    (hfresh' : ctx.Fresh k' ((view Db.apply db' own').apply w')) :
    Alike ctx o db db' see ids k' (own ++ [w]) (own' ++ [w']) where
  seen := by
    rw [List.filterMap_append, List.filterMap_append, h.seen]
    simp [List.filterMap, hw]
  fresh := view_concat db own w ▸ hfresh
  fresh' := view_concat db' own' w' ▸ hfresh'
  owned id hid := by
    rw [view_concat]
    exact (h.owned id hid).apply haccount

end Alike

/-! ## The logs -/

section

variable {u : Uuid} (hsub : ctx.session.sub = some u)
  (hlogged : ctx.server.resolvesUnqualified = true)

include hsub hlogged

theorem outcomeFrom_writeAuditLog {id : Uuid}
    (hunused : (view Db.apply db own).auditLog.get? id = none) (action : AuditAction)
    (tableName : String) (recordId : Option Uuid) (oldData newData : Option JsonObject) :
    outcomeFrom Db.apply db (writeAuditLog ctx id action tableName recordId oldData newData) own =
      .ok (id, own ++ [.auditEntry (newAuditEntry ctx u id action tableName recordId oldData newData
        (latestHash ctx (view Db.apply db own)))]) := by
  have hid := Table.contains_eq_false_iff.2 hunused
  rw [writeAuditLog, outcomeFrom_bind, outcomeFrom_select]
  simp only [(resolveAuthUid_ok hsub).2 ⟨hlogged, rfl⟩, outcomeFrom_bind, outcomeFrom_evaluate,
    Except.map, outcomeFrom_statement, hid, Bool.false_eq_true, if_false]
  rfl

/-- The alert about the caller, when there is reason for one. -/
def bulkAlert (ctx : Context) (uid id : Uuid) (tableName op : String) (count : ℕ) : List Write :=
  if 100 < count then
    [.securityEvent (newSecurityEvent ctx uid id .bulkOperation .high
      ("Bulk operation detected: " ++ toString count ++ " operations on " ++ tableName ++
        " in 1 minute")
      [("table", .text tableName), ("operation", .text op), ("count", .ofNat count),
        ("user", .ofUuid (some uid))]
      "alerted")]
  else []

theorem outcomeFrom_detectBulkOperation {id : Uuid}
    (hunused : (view Db.apply db own).securityEvents.get? id = none) (tableName op : String) :
    outcomeFrom Db.apply db (detectBulkOperation ctx id tableName op) own =
      .ok ((), own ++ bulkAlert ctx u id tableName op
        (recentOperations ctx u tableName (view Db.apply db own))) := by
  have hid := Table.contains_eq_false_iff.2 hunused
  rw [detectBulkOperation, authUid_of_sub hsub, outcomeFrom_bind, outcomeFrom_evaluate]
  simp only [Except.map, outcomeFrom_bind, outcomeFrom_select, onlyIf, bulkAlert]
  split
  · simp only [logSecurityEvent, (resolveAuthUid_ok hsub).2 ⟨hlogged, rfl⟩, outcomeFrom_bind,
      outcomeFrom_evaluate, Except.map, outcomeFrom_statement, hid, Bool.false_eq_true, if_false]
    rfl
  · rw [List.append_nil]
    rfl

variable (hsee : Conceals ctx db db' see) (h : Alike ctx o db db' see ids k own own')

include hsee h

/-- **A row of the audit log** looks the same in both. -/
theorem related_writeAuditLog (hk : k < Context.generated) (action : AuditAction)
    (tableName : String) (recordId : Option Uuid) (oldData newData : Option JsonObject) :
    Call.Related Db.apply db db'
      (writeAuditLog ctx (ctx.uuid k) action tableName recordId oldData newData)
      (writeAuditLog ctx (ctx.uuid k) action tableName recordId oldData newData)
      (Meet ctx o db db' see ids (k + 1)) own own' := by
  refine Call.related_of_ok
    (outcomeFrom_writeAuditLog hsub hlogged (h.fresh.head hk).auditLog _ _ _ _ _)
    (outcomeFrom_writeAuditLog hsub hlogged (h.fresh'.head hk).auditLog _ _ _ _ _) ⟨rfl, ?_⟩
  exact h.append (hsee.audit own own' h.seen _ _ _ _ _ _ _) (fun a ha => nomatch ha)
    (h.fresh.apply_new rfl) (h.fresh'.apply_new rfl)

/-- **An alert** is not seen, or raised in both. -/
theorem related_detectBulkOperation (hk : k < Context.generated) (tableName op : String) :
    Call.Related Db.apply db db' (detectBulkOperation ctx (ctx.uuid k) tableName op)
      (detectBulkOperation ctx (ctx.uuid k) tableName op) (Meet ctx o db db' see ids (k + 1))
      own own' := by
  refine Call.related_of_ok
    (outcomeFrom_detectBulkOperation hsub hlogged (h.fresh.head hk).securityEvents _ _)
    (outcomeFrom_detectBulkOperation hsub hlogged (h.fresh'.head hk).securityEvents _ _)
    ⟨rfl, ?_⟩
  have hfresh : ∀ {db : Db} {own : List Write}, ctx.Fresh k (view Db.apply db own) → ∀ count,
      ctx.Fresh (k + 1) (view Db.apply db
        (own ++ bulkAlert ctx u (ctx.uuid k) tableName op count)) := by
    intro db own h count
    unfold bulkAlert
    split
    · rw [view_concat]
      exact h.apply_new rfl
    · rw [List.append_nil]
      exact h.mono (by omega)
  refine ⟨?_, hfresh h.fresh _, hfresh h.fresh' _, fun id hid => ?_⟩
  · rw [List.filterMap_append, List.filterMap_append, h.seen]
    rcases hsee.alerts own own' h.seen with hnone | hcount
    · have hunseen : ∀ count,
          (bulkAlert ctx u (ctx.uuid k) tableName op count).filterMap see = [] := by
        intro count
        unfold bulkAlert
        split
        · simp [hnone]
        · rfl
      rw [hunseen, hunseen]
    · rw [hcount]
  · unfold bulkAlert
    split
    · rw [view_concat]
      exact (h.owned id hid).apply fun a ha => nomatch ha
    · rw [List.append_nil]
      exact h.owned id hid

variable (hsame : db.SameTenant o db')

/-- The trigger on `accounts` is passed, or not, by both. -/
theorem related_validateBalance (hk : k < Context.generated) (old : Account) (balance : Money) :
    Call.Related Db.apply db db' (validateBalance ctx (ctx.uuid k) old balance)
      (validateBalance ctx (ctx.uuid k) old balance) (Meet ctx o db db' see ids (k + 1))
      own own' := by
  rw [validateBalance]
  refine Call.related_bind (R := fun _ _ ws ws' => ws = own ∧ ws' = own')
    (Call.related_onlyIf (fun _ => Call.related_throw _ _) fun _ => ⟨rfl, rfl⟩) ?_
  rintro _ _ _ _ - - ⟨rfl, rfl⟩
  refine Call.related_onlyIf (fun _ => ?_) fun _ => ⟨rfl, h.mono (by omega)⟩
  refine Call.related_bind (related_writeAuditLog hsub hlogged hsee h hk _ _ _ _ _) ?_
  rintro _ _ _ _ - - ⟨-, h⟩
  exact Call.related_pure ⟨rfl, h⟩

include hsame

/-- **An update of a balance** of an account of the organization. -/
theorem related_updateBalance (hk : k + 1 < Context.generated) {id : Option Uuid} (hid : id ∈ ids)
    (f : Numeric → Numeric) :
    Call.Related Db.apply db db' (updateBalance ctx k id f) (updateBalance ctx k id f)
      (Meet ctx o db db' see ids (k + 2)) own own' := by
  have hrows := h.accountRow_eq hsame hsee hid
  rw [updateBalance]
  refine Call.related_bind (R := fun row row' ws ws' => row = row' ∧ ws = own ∧ ws' = own' ∧
    ∀ r, row = some r → accountRow id (view Db.apply db own) = some r.1)
    (Call.related_statement (by simp only [hrows]) ?_) ?_
  · intro ws row hexec
    cases hrow : accountRow id (view Db.apply db own) with
    | none =>
      simp only [hrow] at hexec
      cases hexec
      exact ⟨rfl, List.append_nil _, List.append_nil _, fun r hr => by cases hr⟩
    | some a =>
      simp only [hrow] at hexec
      obtain ⟨stored, -, hexec⟩ := bind_eq_ok.1 hexec
      obtain ⟨balance, -, hexec⟩ := bind_eq_ok.1 hexec
      cases hexec
      refine ⟨rfl, List.append_nil _, List.append_nil _, ?_⟩
      rintro _ ⟨⟩
      rfl
  rintro row _ _ _ - - ⟨rfl, rfl, rfl, hrow⟩
  rcases row with _ | ⟨old, balance⟩
  · refine Call.related_bind
      (related_detectBulkOperation hsub hlogged hsee (h.mono (Nat.le_succ k)) hk _ _) ?_
    rintro _ _ _ _ - - ⟨-, h⟩
    exact Call.related_pure ⟨rfl, h⟩
  · have hold : ∀ {db : Db}, accountRow id db = some old → db.accounts.get? old.id = some old := by
      intro db ha
      obtain ⟨i, -, hget⟩ := Option.bind_eq_some_iff.1 ha
      rw [Table.key_of_get? hget]
      exact hget
    have hrow := hrow _ rfl
    have hne : ∀ n, k ≤ n → n < Context.generated → old.id ≠ ctx.uuid n :=
      fun n hn hlt => h.fresh.id_ne (hold hrow) hn hlt
    have horg : old.orgId = o := by
      rcases h.owned id hid with rfl | ⟨a, ha, horg⟩
      · cases hrow
      · rw [hrow] at ha
        cases ha
        exact horg
    refine Call.related_bind
      (related_validateBalance hsub hlogged hsee h (Nat.lt_of_succ_lt hk) old balance) ?_
    rintro _ _ ws ws' - - ⟨-, h⟩
    refine Call.related_evaluate_bind fun checked _ => ?_
    refine Call.related_bind (R := Meet ctx o db db' see ids (k + 1))
      (Call.related_statement rfl fun _ _ hexec => ?_) ?_
    · cases hexec
      have hfresh : ∀ n, k + 1 ≤ n → n < Context.generated →
          Write.id (.account { old with balance := checked, updatedAt := ctx.now }) ≠
            some (ctx.uuid n) :=
        fun n hn hlt hc => hne n (Nat.le_of_succ_le hn) hlt (Option.some.inj hc)
      exact ⟨rfl, h.append rfl (fun a ha => by cases ha; exact horg)
        (h.fresh.apply_of_ne hfresh) (h.fresh'.apply_of_ne hfresh)⟩
    rintro _ _ _ _ - - ⟨-, h⟩
    refine Call.related_bind (related_detectBulkOperation hsub hlogged hsee h hk _ _) ?_
    rintro _ _ _ _ - - ⟨-, h⟩
    exact Call.related_pure ⟨rfl, h⟩

variable {args : TransactionArgs} (horg : args.orgId = some o)
  (hfound : db.organizations.contains o = true) (hfound' : db'.organizations.contains o = true)

omit hlogged in
include horg hfound hfound' in
/-- **An entry of the ledger** of the organization. -/
theorem related_insertLedgerEntry (hk : k < Context.generated) {accountId : Option Uuid}
    (hid : accountId ∈ ids) (transactionId : Uuid) (entryType : EntryType)
    (balance : Option Money) :
    Call.Related Db.apply db db'
      (insertLedgerEntry ctx (ctx.uuid k) args transactionId accountId entryType balance)
      (insertLedgerEntry ctx (ctx.uuid k) args transactionId accountId entryType balance)
      (Meet ctx o db db' see ids (k + 1)) own own' := by
  have hrows := h.accountRow_eq hsame hsee hid
  rw [insertLedgerEntry, authUid_of_sub hsub]
  refine Call.related_evaluate_bind fun uid huid => ?_
  refine Call.related_statement ?_ ?_
  · cases hnew : newLedgerEntry ctx uid (ctx.uuid k) args transactionId accountId entryType
        balance with
    | error e => simp only [bind, Except.bind]
    | ok e =>
      have hrow := newLedgerEntry_ok hnew
      have hentry : e.orgId = o := Option.some.inj (hrow.orgId.symm.trans horg)
      have hstamp := (newLedgerEntry_stamp hnew).1
      have hunused := Table.contains_eq_false_iff.2 (h.fresh.head hk).ledgerEntries
      have hunused' := Table.contains_eq_false_iff.2 (h.fresh'.head hk).ledgerEntries
      have haccount : (view Db.apply db own).accounts.contains e.accountId =
          (view Db.apply db' own').accounts.contains e.accountId := by
        rw [hrow.accountId] at hrows
        exact congrArg Option.isSome hrows
      simp only [bind, Except.bind, hstamp, hunused, hunused', view_organizations, hentry, hfound,
        hfound', haccount]
  · intro ws _ hexec
    obtain ⟨e, hnew, hexec⟩ := bind_eq_ok.1 hexec
    repeat' split at hexec
    all_goals cases hexec
    have hstamp : Write.id (.ledgerEntry e) = some (ctx.uuid k) :=
      congrArg some (newLedgerEntry_stamp hnew).1
    exact ⟨rfl, h.append rfl (fun a ha => by cases ha) (h.fresh.apply_new hstamp)
      (h.fresh'.apply_new hstamp)⟩

include horg hfound hfound'

/-- **A posting** to an account of the organization. -/
theorem related_postEntry (hk : k + 2 < Context.generated) {accountId : Option Uuid}
    (hid : accountId ∈ ids) (transactionId : Uuid) (entryType : EntryType) (amount : Numeric) :
    Call.Related Db.apply db db'
      (postEntry ctx k args transactionId accountId entryType amount)
      (postEntry ctx k args transactionId accountId entryType amount)
      (Meet ctx o db db' see ids (k + 3)) own own' := by
  rw [postEntry]
  refine Call.related_bind
    (related_updateBalance hsub hlogged hsee h hsame (Nat.lt_of_succ_lt hk) hid _) ?_
  rintro balance _ _ _ - - ⟨rfl, h⟩
  exact related_insertLedgerEntry hsub hsee h hsame horg hfound hfound' hk hid _ _ _

end

section

variable (hlogged : ctx.server.resolvesUnqualified = true) (hsee : Conceals ctx db db' see)
  (hsame : db.SameTenant o db') {args : TransactionArgs} (horg : args.orgId = some o)
  (hfound : db.organizations.contains o = true) (hfound' : db'.organizations.contains o = true)
  (h : Alike ctx o db db' see ids 0 own own') (hsource : args.sourceAccount ∈ ids)
  (hdest : args.destAccount ∈ ids)
  (hkey : ∀ uid t, authUid ctx = .ok uid → newTransaction ctx uid (ctx.uuid 0) args = .ok t →
    keyTaken args.idempotencyKey (view Db.apply db own) =
      keyTaken args.idempotencyKey (view Db.apply db' own'))

include hlogged hsee hsame horg hfound hfound' h hsource hdest hkey

/-- **The insertion of a transaction**: both find its key taken, or neither. -/
theorem related_insertTransaction {u : Uuid} (hsub : ctx.session.sub = some u) :
    Call.Related Db.apply db db' (insertTransaction ctx args) (insertTransaction ctx args)
      (Meet ctx o db db' see ids 2) own own' := by
  have hreferences : ∀ {id : Option Uuid}, id ∈ ids →
      referencesAccount id (view Db.apply db own) =
        referencesAccount id (view Db.apply db' own') := by
    intro id hid
    have hrows := h.accountRow_eq hsame hsee hid
    cases id with
    | none => rfl
    | some i => exact congrArg Option.isSome hrows
  rw [insertTransaction]
  refine Call.related_evaluate_bind fun uid huid => ?_
  refine Call.related_bind (R := Meet ctx o db db' see ids 1) (Call.related_statement ?_ ?_) ?_
  · cases hnew : newTransaction ctx uid (ctx.uuid 0) args with
    | error e => simp only [bind, Except.bind]
    | ok t =>
      have hrow := newTransaction_ok hnew
      have ht : t.orgId = o := Option.some.inj (hrow.orgId.symm.trans horg)
      have hunused := Table.contains_eq_false_iff.2 (h.fresh.head (by decide)).transactions
      have hunused' := Table.contains_eq_false_iff.2 (h.fresh'.head (by decide)).transactions
      simp only [bind, Except.bind, hrow.id, hunused, hunused', hrow.idempotencyKey,
        hkey uid t huid hnew, view_organizations, ht, hfound, hfound', hrow.sourceAccountId,
        hrow.destAccountId, hreferences hsource, hreferences hdest]
  · intro ws t hexec
    obtain ⟨t, hnew, hexec⟩ := bind_eq_ok.1 hexec
    repeat' split at hexec
    all_goals cases hexec
    have hid : Write.id (.transaction t) = some (ctx.uuid 0) := congrArg some (newTransaction_ok hnew).id
    exact ⟨rfl, h.append rfl (fun a ha => by cases ha) (h.fresh.apply_new hid)
      (h.fresh'.apply_new hid)⟩
  rintro t _ _ _ - - ⟨rfl, h⟩
  refine Call.related_bind (related_detectBulkOperation hsub hlogged hsee h (by decide) _ _) ?_
  rintro _ _ _ _ - - ⟨-, h⟩
  exact Call.related_pure ⟨rfl, h⟩

/-- **The writes of a transfer** within the organization. -/
theorem related_postTransfer :
    Call.Related Db.apply db db' (postTransfer ctx args) (postTransfer ctx args)
      (Meet ctx o db db' see ids 9) own own' := by
  rw [postTransfer]
  cases hsub : ctx.session.sub with
  | none =>
    have hunknown : ∀ db own, outcomeFrom Db.apply db (insertTransaction ctx args) own =
        .error (.invalidTextRepresentation "uuid" ctx.session.role.name) := by
      intro db own
      rw [insertTransaction, outcomeFrom_bind, authUid, hsub]
      rfl
    rw [Call.Related, outcomeFrom_bind, outcomeFrom_bind, hunknown, hunknown]
    exact rfl
  | some u =>
    refine Call.related_bind (related_insertTransaction hlogged hsee hsame horg hfound hfound' h
      hsource hdest hkey hsub) ?_
    rintro t _ _ _ - - ⟨rfl, h⟩
    refine Call.related_evaluate_bind fun amount _ => ?_
    refine Call.related_bind (related_postEntry hsub hlogged hsee h hsame horg hfound hfound'
      (by decide) hsource _ _ _) ?_
    rintro _ _ ws ws' - - ⟨-, h⟩
    refine Call.related_bind (R := Meet ctx o db db' see ids 8)
      (Call.related_onlyIf (fun _ => ?_) fun _ => ⟨rfl, h.mono (by omega)⟩) ?_
    · exact related_postEntry hsub hlogged hsee h hsame horg hfound hfound' (by decide) hdest _ _ _
    rintro _ _ _ _ - - ⟨-, h⟩
    refine Call.related_bind (related_writeAuditLog hsub hlogged hsee h (by decide) _ _ _ _ _) ?_
    rintro _ _ _ _ - - ⟨-, h⟩
    exact Call.related_pure ⟨rfl, h⟩

end

end

end EnterpriseSystem
