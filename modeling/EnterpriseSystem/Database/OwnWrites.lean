import EnterpriseSystem.Database.Security

/-!
# What a call sees of its own writes

A call sees the committed rows with its own writes on top.  The lemmas below say
what that makes of each table, so that a statement about a call can speak of the
rows it has written and of the committed ones.

* `view_accounts`, `view_get?_congr` and their companions — the accounts, which
  a call also updates.
* `updated`, `inserted`, `posted`, `audited` — the accounts, transactions, entries
  and audit rows a call has written; `view_updated` and its companions put them on top.
* `view_organizations` — the organizations, which no call here writes.
-/

namespace EnterpriseSystem

open Relational Concurrency

/-- The lock on the row of an account. -/
abbrev accountLock (id : Uuid) : LockKey := .row .accounts id

/-! ## What a call sees of the accounts -/

/-- A row of a table other than `accounts`. -/
def Write.NotAccount (w : Write) : Prop := ∀ a, w ≠ .account a

theorem Write.Quiet.notAccount {w : Write} (h : w.Quiet) : w.NotAccount := by
  rintro a rfl
  exact h

section

variable {db db' : Db} {ws : List Write} {i : Uuid}

theorem apply_accounts {w : Write} (hw : w.NotAccount) : (db.apply w).accounts = db.accounts := by
  cases w with
  | account a => exact absurd rfl (hw a)
  | _ => rfl

theorem view_accounts (h : ∀ w ∈ ws, w.NotAccount) :
    (view Db.apply db ws).accounts = db.accounts := by
  induction ws generalizing db with
  | nil => rfl
  | cons w ws ih =>
    rw [view_cons, ih fun w' hw' => h w' (List.mem_cons_of_mem _ hw'),
      apply_accounts (h w (List.mem_cons_self ..))]

/-- The view of an account depends on the committed row of this account only. -/
theorem view_get?_congr (h : db'.accounts.get? i = db.accounts.get? i) :
    (view Db.apply db' ws).accounts.get? i = (view Db.apply db ws).accounts.get? i := by
  induction ws generalizing db db' with
  | nil => exact h
  | cons w ws ih =>
    refine ih ?_
    cases w with
    | account a => simp only [Db.apply, Table.get?_put, h]
    | _ => exact h

/-- An account that is there is there in every view of it. -/
theorem view_get?_ne_none (h : db.accounts.get? i ≠ none) :
    (view Db.apply db ws).accounts.get? i ≠ none := by
  induction ws generalizing db with
  | nil => exact h
  | cons w ws ih =>
    refine ih ?_
    cases w with
    | account a =>
      simp only [Db.apply, Table.get?_put]
      split
      · exact Option.some_ne_none a
      · exact h
    | _ => exact h

theorem view_get?_mono (h : db.accounts.get? i ≠ none → db'.accounts.get? i ≠ none)
    (hview : (view Db.apply db ws).accounts.get? i ≠ none) :
    (view Db.apply db' ws).accounts.get? i ≠ none := by
  induction ws generalizing db db' with
  | nil => exact h hview
  | cons w ws ih =>
    refine ih ?_ hview
    cases w with
    | account a =>
      simp only [Db.apply, Table.get?_put]
      split
      · exact id
      · exact h
    | _ => exact h

theorem view_get?_of_not_written (h : ∀ a, .account a ∈ ws → a.id ≠ i) :
    (view Db.apply db ws).accounts.get? i = db.accounts.get? i := by
  induction ws generalizing db with
  | nil => rfl
  | cons w ws ih =>
    rw [view_cons, ih fun a ha => h a (List.mem_cons_of_mem _ ha)]
    cases w with
    | account a => exact Table.get?_put_of_ne _ (h a (List.mem_cons_self ..))
    | _ => rfl

end

/-! ## The rows a call has written -/

def Write.transaction? : Write → Option Transaction
  | .transaction t => some t
  | _ => none

def Write.ledgerEntry? : Write → Option LedgerEntry
  | .ledgerEntry e => some e
  | _ => none

def Write.account? : Write → Option Account
  | .account a => some a
  | _ => none

def Write.auditEntry? : Write → Option AuditEntry
  | .auditEntry e => some e
  | _ => none

/-- The accounts among some writes. -/
def updated (own : List Write) : List Account := own.filterMap Write.account?

/-- The transactions among some writes. -/
def inserted (own : List Write) : List Transaction := own.filterMap Write.transaction?

/-- The entries among some writes. -/
def posted (own : List Write) : List LedgerEntry := own.filterMap Write.ledgerEntry?

/-- The audit rows among some writes. -/
def audited (own : List Write) : List AuditEntry := own.filterMap Write.auditEntry?

theorem view_auditLog (db : Db) (own : List Write) :
    (view Db.apply db own).auditLog = (audited own).foldl Table.put db.auditLog := by
  induction own generalizing db with
  | nil => rfl
  | cons w own ih =>
    rw [view_cons, ih]
    cases w <;> rfl

theorem view_updated (db : Db) (own : List Write) :
    (view Db.apply db own).accounts = (updated own).foldl Table.put db.accounts := by
  induction own generalizing db with
  | nil => rfl
  | cons w own ih =>
    rw [view_cons, ih]
    cases w <;> rfl

theorem view_transactions (db : Db) (own : List Write) :
    (view Db.apply db own).transactions = (inserted own).foldl Table.put db.transactions := by
  induction own generalizing db with
  | nil => rfl
  | cons w own ih =>
    rw [view_cons, ih]
    cases w <;> rfl

theorem view_ledgerEntries (db : Db) (own : List Write) :
    (view Db.apply db own).ledgerEntries = (posted own).foldl Table.put db.ledgerEntries := by
  induction own generalizing db with
  | nil => rfl
  | cons w own ih =>
    rw [view_cons, ih]
    cases w <;> rfl

/-- A write that inserts neither a transaction nor an entry. -/
def Write.Unposted (w : Write) : Prop := w.transaction? = none ∧ w.ledgerEntry? = none

theorem Write.Quiet.unposted {w : Write} (h : w.Quiet) : w.Unposted := by
  cases w with
  | transaction t => exact h.elim
  | ledgerEntry e => exact h.elim
  | _ => exact ⟨rfl, rfl⟩

theorem inserted_append {own ws : List Write} (h : ∀ w ∈ ws, w.Unposted) :
    inserted (own ++ ws) = inserted own := by
  have hws : inserted ws = [] := List.filterMap_eq_nil_iff.2 fun w hw => (h w hw).1
  rw [inserted, List.filterMap_append, ← inserted, ← inserted, hws, List.append_nil]

theorem posted_append {own ws : List Write} (h : ∀ w ∈ ws, w.Unposted) :
    posted (own ++ ws) = posted own := by
  have hws : posted ws = [] := List.filterMap_eq_nil_iff.2 fun w hw => (h w hw).2
  rw [posted, List.filterMap_append, ← posted, ← posted, hws, List.append_nil]

/-! ## The organizations -/

theorem view_organizations (db : Db) (own : List Write) :
    (view Db.apply db own).organizations = db.organizations := by
  induction own generalizing db with
  | nil => rfl
  | cons w own ih =>
    rw [view_cons, ih]
    cases w <;> rfl

end EnterpriseSystem
