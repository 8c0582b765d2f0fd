import EnterpriseSystem.Database.Rules

/-!
# The balance in the latest entry

An entry records the balance of its account after it, so that the balance can be
read off the entry with the greatest `created_at`.  That time is when the call
started, and the balance is what the call found once it had the row lock.

* `SnapshotsAgree` — the latest entry of every account has its balance.
* `Snapshots` — what a call knows of its own writes: they come in pairs of an
  account and the entry that records its balance.
* `StartsLater` — a call starts later than every entry was made that its
  accounts have when it commits.
* `snapshots_agree` — when every commit meets that, the entries can be trusted;
  `not_snapshots_agree` — two transfers that commit in the other order.
-/

namespace EnterpriseSystem

open Relational Concurrency

/-- No entry of its account was created later. -/
def LedgerEntry.IsLatest (e : LedgerEntry) (db : Db) : Prop :=
  e ∈ db.ledgerEntries ∧
    ∀ e' ∈ db.ledgerEntries, e'.accountId = e.accountId → e'.createdAt ≤ e.createdAt

/-- The latest entry of every account that has one records its balance. -/
def SnapshotsAgree (db : Db) : Prop :=
  ∀ a ∈ db.accounts, ∀ e : LedgerEntry, e.IsLatest db → e.accountId = a.id →
    e.balanceAfter = a.balance.1

/-- The call has started after every committed entry was created that belongs to
an account the call has posted to. -/
def StartsLater (ctx : Context) (own : List Write) (db : Db) : Prop :=
  ∀ e ∈ posted own, ∀ e' ∈ db.ledgerEntries, e'.accountId = e.accountId → e'.createdAt < ctx.now

/-- The rules of the calls: an identifier of an entry belongs to the call that
has inserted it. -/
def snapshotting : Discipline Db LockKey PgError where
  Inv := SnapshotsAgree
  Rely held db db' := ∀ id, .row .ledgerEntries id ∈ held →
    db'.ledgerEntries.get? id = db.ledgerEntries.get? id
  Allowed _ := True
  refl _ _ _ _ := rfl
  trans h h' id hid := (h' id hid).trans (h id hid)

/-! ## What a call knows -/

/-- A write of a row that is neither an account nor an entry. -/
def Write.Unbooked (w : Write) : Prop := w.account? = none ∧ w.ledgerEntry? = none

theorem Write.Quiet.unbooked {w : Write} (h : w.Quiet) : w.Unbooked := by
  cases w with
  | account a => exact h.elim
  | ledgerEntry e => exact h.elim
  | _ => exact ⟨rfl, rfl⟩

/-- The call has written the accounts and the entries of `ps`, each entry with
the balance of its account, and then the accounts `moved`. -/
structure Snapshots (ctx : Context) (ps : List (Account × LedgerEntry)) (moved : List Account)
    (own : List Write) (held : List LockKey) (db : Db) : Prop where
  updated : updated own = ps.map Prod.fst ++ moved
  posted : posted own = ps.map Prod.snd
  accountId : ∀ p ∈ ps, p.2.accountId = p.1.id
  balance : ∀ p ∈ ps, p.2.balanceAfter = p.1.balance.1
  createdAt : ∀ p ∈ ps, p.2.createdAt = ctx.now
  accounts : ((ps.map Prod.fst ++ moved).map Account.id).Nodup
  entries : ((ps.map Prod.snd).map LedgerEntry.id).Nodup
  locked : ∀ p ∈ ps, .row .ledgerEntries p.2.id ∈ held
  free : ∀ p ∈ ps, db.ledgerEntries.get? p.2.id = none

theorem robust_snapshots (ctx : Context) (ps : List (Account × LedgerEntry)) (moved : List Account) :
    Robust snapshotting Write.Unbooked (Snapshots ctx ps moved) where
  stable := by
    intro own held db db' h hrely _
    exact { h with free := fun p hp => (hrely _ (h.locked p hp)).trans (h.free p hp) }
  append := by
    intro own held db ws ks h hws
    have haccounts : updated ws = [] := List.filterMap_eq_nil_iff.2 fun w hw => (hws w hw).1
    have hentries : posted ws = [] := List.filterMap_eq_nil_iff.2 fun w hw => (hws w hw).2
    exact { h with
      updated := by
        rw [updated, List.filterMap_append, ← updated, ← updated, haccounts, List.append_nil]
        exact h.updated
      posted := by
        rw [posted, List.filterMap_append, ← posted, ← posted, hentries, List.append_nil]
        exact h.posted
      locked := fun p hp => List.mem_append_left _ (h.locked p hp) }

theorem snapshots_nil (ctx : Context) (db : Db) : Snapshots ctx [] [] [] [] db where
  updated := rfl
  posted := rfl
  accountId _ hp := nomatch hp
  balance _ hp := nomatch hp
  createdAt _ hp := nomatch hp
  accounts := .nil
  entries := .nil
  locked _ hp := nomatch hp
  free _ hp := nomatch hp

namespace Snapshots

variable {ctx : Context} {ps : List (Account × LedgerEntry)} {own : List Write}
  {held : List LockKey} {db : Db}

theorem view_accounts (h : Snapshots ctx ps [] own held db) :
    (view Db.apply db own).accounts = (ps.map Prod.fst).foldl Table.put db.accounts := by
  rw [view_updated, h.updated, List.append_nil]

theorem view_ledgerEntries (h : Snapshots ctx ps [] own held db) :
    (view Db.apply db own).ledgerEntries = (ps.map Prod.snd).foldl Table.put db.ledgerEntries := by
  rw [EnterpriseSystem.view_ledgerEntries, h.posted]

/-- An entry of the view is committed or the call's own. -/
theorem entry_cases (h : Snapshots ctx ps [] own held db) {e : LedgerEntry}
    (he : e ∈ (view Db.apply db own).ledgerEntries) :
    e ∈ db.ledgerEntries ∨ ∃ p ∈ ps, p.2 = e := by
  rw [h.view_ledgerEntries] at he
  rcases Table.mem_of_mem_foldl_put he with he | he
  · exact Or.inr (List.mem_map.1 he)
  · exact Or.inl he

/-- The committed entries stay in the view. -/
theorem mem_view_of_mem (h : Snapshots ctx ps [] own held db) {e : LedgerEntry}
    (he : e ∈ db.ledgerEntries) : e ∈ (view Db.apply db own).ledgerEntries := by
  have hfree : ∀ e' ∈ ps.map Prod.snd, e'.id ≠ e.id := by
    intro e' he' hid
    obtain ⟨p, hp, rfl⟩ := List.mem_map.1 he'
    exact Table.get?_eq_none_iff.1 (h.free p hp) e he hid.symm
  rw [h.view_ledgerEntries]
  refine Table.mem_of_get? (k := e.id) ?_
  rw [Table.get?_foldl_put_of_ne hfree]
  exact Table.get?_of_mem he

/-- The pair of an account: the view has both. -/
theorem mem_view_of_pair (h : Snapshots ctx ps [] own held db) {p : Account × LedgerEntry}
    (hp : p ∈ ps) : (view Db.apply db own).accounts.get? p.1.id = some p.1 ∧
      p.2 ∈ (view Db.apply db own).ledgerEntries := by
  rw [h.view_accounts, h.view_ledgerEntries]
  have haccounts : ((ps.map Prod.fst).map Account.id).Nodup := by
    simpa using h.accounts
  exact ⟨Table.get?_foldl_put_of_mem haccounts (List.mem_map_of_mem hp),
    Table.mem_of_get? (Table.get?_foldl_put_of_mem h.entries (List.mem_map_of_mem hp))⟩

/-- Two pairs of one account are the same. -/
theorem eq_of_id_eq (h : Snapshots ctx ps [] own held db) {p q : Account × LedgerEntry}
    (hp : p ∈ ps) (hq : q ∈ ps) (hid : p.1.id = q.1.id) : p = q := by
  have hnodup : (ps.map fun p => p.1.id).Nodup := by
    simpa [List.map_map, Function.comp_def] using h.accounts
  exact List.inj_on_of_nodup_map hnodup hp hq hid

/-- **The view agrees** when the call has started late enough: its own entries
are the latest of their accounts, and the others are left alone. -/
theorem view_agree (h : Snapshots ctx ps [] own held db) (hinv : SnapshotsAgree db)
    (hlater : StartsLater ctx own db) : SnapshotsAgree (view Db.apply db own) := by
  intro a ha e ⟨he, hlatest⟩ haccount
  by_cases hpair : ∃ p ∈ ps, p.1.id = a.id
  · obtain ⟨p, hp, hid⟩ := hpair
    obtain ⟨hrow, hentry⟩ := h.mem_view_of_pair hp
    have hpa : p.1 = a := Table.eq_of_key_eq (Table.mem_of_get? hrow) ha hid
    have hsame : p.2.accountId = e.accountId := by
      rw [h.accountId p hp, hid, haccount]
    have hle : p.2.createdAt ≤ e.createdAt := hlatest p.2 hentry hsame
    rcases h.entry_cases he with hold | ⟨q, hq, rfl⟩
    · -- a committed entry is older than the call
      have hmem : p.2 ∈ EnterpriseSystem.posted own := by
        rw [h.posted]
        exact List.mem_map_of_mem hp
      have hlt : e.createdAt < ctx.now := hlater p.2 hmem e hold hsame.symm
      rw [h.createdAt p hp] at hle
      exact absurd hlt (not_lt.2 hle)
    · obtain rfl : q = p := by
        refine h.eq_of_id_eq hq hp ?_
        rw [← h.accountId q hq, haccount, hid]
      rw [h.balance q hq, hpa]
  · have hnew : ∀ p ∈ ps, p.2 ≠ e := by
      rintro p hp rfl
      exact hpair ⟨p, hp, (h.accountId p hp).symm.trans haccount⟩
    have hold : e ∈ db.ledgerEntries := (h.entry_cases he).resolve_right
      fun ⟨p, hp, hpe⟩ => hnew p hp hpe
    have ha' : a ∈ db.accounts := by
      rw [h.view_accounts] at ha
      rcases Table.mem_of_mem_foldl_put ha with ha | ha
      · obtain ⟨p, hp, rfl⟩ := List.mem_map.1 ha
        exact absurd ⟨p, hp, rfl⟩ hpair
      · exact ha
    exact hinv a ha' e ⟨hold, fun e' he' => hlatest e' (h.mem_view_of_mem he')⟩ haccount

/-- **A call whose accounts and entries are paired can commit** in order. -/
theorem committableIf (h : Snapshots ctx ps [] own held db) :
    CommittableIf Db.apply snapshotting (StartsLater ctx) own held db := by
  intro db' hrely hinv hlater
  have h' : Snapshots ctx ps [] own held db' := (robust_snapshots ctx ps []).stable h hrely hinv
  refine ⟨h'.view_agree hinv hlater, fun held' hdisjoint id hid => ?_⟩
  rw [h'.view_ledgerEntries]
  refine Table.get?_foldl_put_of_ne fun e he => ?_
  obtain ⟨p, hp, rfl⟩ := List.mem_map.1 he
  rintro rfl
  exact hdisjoint _ (h'.locked p hp) hid

end Snapshots

/-! ## The functions -/

section

variable {ctx : Context} {args : TransactionArgs} {ps : List (Account × LedgerEntry)}
  {own : List Write} {held : List LockKey} {db : Db}

/-- **An update of a balance** that finds its account writes it. -/
theorem wp_moveBalance {site : ℕ} {id : Option Uuid} {f : Numeric → Numeric}
    (hnew : ∀ p ∈ ps, id ≠ some p.1.id) (h : Snapshots ctx ps [] own held db) :
    Call.wp Db.apply snapshotting (updateBalance ctx site id f)
      (fun b own held db => b = none ∨ ∃ a : Account, id = some a.id ∧ b = some a.balance.1 ∧
        Snapshots ctx ps [a] own held db) own held db := by
  have hquiet : ∀ {α : Type} {p : Rpc α}, p.Quiet →
      Call.Within Write.Unbooked snapshotting.Allowed p :=
    fun hp => hp.mono (fun _ => Write.Quiet.unbooked) fun _ _ => trivial
  rw [updateBalance, Call.wp_bind, Call.wp_statement]
  intro db' hrely hinv
  have h' : Snapshots ctx ps [] own held db' := (robust_snapshots ctx ps []).stable h hrely hinv
  refine ⟨fun ws row hexec => ?_, fun _ _ => trivial⟩
  cases hrow : accountRow id (view Db.apply db' own) with
  | none =>
    simp only [hrow] at hexec
    cases hexec
    rw [Call.wp_bind]
    refine Call.wp_mono (fun _ _ _ _ _ => Or.inl rfl)
      ((robust_snapshots ctx ps []).wp (hquiet (quiet_detectBulkOperation _ _ _ _)) ?_)
    exact (robust_snapshots ctx ps []).append h' (by simp)
  | some a =>
    simp only [hrow] at hexec
    obtain ⟨stored, -, hexec⟩ := bind_eq_ok.1 hexec
    obtain ⟨balance, -, hexec⟩ := bind_eq_ok.1 hexec
    cases hexec
    obtain ⟨i, rfl, hget⟩ := Option.bind_eq_some_iff.1 hrow
    have hid : a.id = i := Table.key_of_get? hget
    rw [Call.wp_bind]
    refine Call.wp_mono (fun _ own held db h => ?_) ((robust_snapshots ctx ps []).wp
      (within_validateBalance (fun _ => Write.Quiet.unbooked) _ _ _ _)
      ((robust_snapshots ctx ps []).append h' (by simp)))
    rw [Call.wp_bind, Call.wp_evaluate]
    refine ⟨fun checked hchecked => ?_, fun _ _ => trivial⟩
    obtain rfl := check_ok.1 hchecked
    rw [Call.wp_bind, Call.wp_statement]
    intro db'' hrely hinv
    refine ⟨?_, fun _ _ => trivial⟩
    intro ws _ hexec
    cases hexec
    have h'' := (robust_snapshots ctx ps []).stable h hrely hinv
    have hmoved : Snapshots ctx ps [{ a with balance := checked, updatedAt := ctx.now }]
        (own ++ [.account { a with balance := checked, updatedAt := ctx.now }]) (held ++ []) db'' := {
      h'' with
      updated := by
        rw [updated, List.filterMap_append, ← updated, h''.updated, List.append_nil]
        rfl
      posted := by
        rw [posted, List.filterMap_append, ← posted, h''.posted]
        simp [Write.ledgerEntry?]
      accounts := by
        have hnodup := h''.accounts
        rw [List.append_nil] at hnodup
        rw [List.map_append, List.nodup_append]
        refine ⟨hnodup, by simp, ?_⟩
        rintro k hk k' hk' rfl
        rw [List.map_map, List.mem_map] at hk
        obtain ⟨p, hp, rfl⟩ := hk
        simp only [List.map_cons, List.map_nil, List.mem_singleton, hid] at hk'
        exact hnew p hp (congrArg some hk'.symm)
      locked := fun p hp => List.mem_append_left _ (h''.locked p hp) }
    rw [Call.wp_bind]
    exact Call.wp_mono (fun _ _ _ _ h => Or.inr
        ⟨{ a with balance := checked, updatedAt := ctx.now }, congrArg some hid.symm, rfl, h⟩)
      ((robust_snapshots ctx ps _).wp (hquiet (quiet_detectBulkOperation _ _ _ _)) hmoved)

/-- **The insertion of an entry** completes the pair. -/
theorem wp_recordBalance {id transactionId : Uuid} {entryType : EntryType} {a : Account}
    (h : Snapshots ctx ps [a] own held db) :
    Call.wp Db.apply snapshotting
      (insertLedgerEntry ctx id args transactionId (some a.id) entryType (some a.balance.1))
      (fun _ own held db => ∃ e, Snapshots ctx (ps ++ [(a, e)]) [] own held db) own held db := by
  rw [insertLedgerEntry, Call.wp_bind, Call.wp_evaluate]
  refine ⟨fun uid _ => ?_, fun _ _ => trivial⟩
  rw [Call.wp_statement]
  intro db' hrely hinv
  refine ⟨fun ws _ hexec => ?_, fun _ _ => trivial⟩
  have h' := (robust_snapshots ctx ps [a]).stable h hrely hinv
  obtain ⟨e, hnew, hexec⟩ := bind_eq_ok.1 hexec
  split at hexec
  · cases hexec
  rename_i hid
  repeat' split at hexec
  all_goals cases hexec
  have hrow := newLedgerEntry_ok hnew
  obtain ⟨hstamp, hcreated⟩ := newLedgerEntry_stamp hnew
  have hfree := Table.contains_eq_false_iff.1 (Bool.eq_false_of_not_eq_true hid)
  rw [view_ledgerEntries, h'.posted, Table.get?_foldl_put_eq_none_iff] at hfree
  have hcases : ∀ {Q : Account × LedgerEntry → Prop}, (∀ p ∈ ps, Q p) → Q (a, e) →
      ∀ p ∈ ps ++ [(a, e)], Q p := by
    intro Q hold hlast p hp
    rcases List.mem_append.1 hp with hp | hp
    · exact hold p hp
    · cases List.mem_singleton.1 hp
      exact hlast
  refine ⟨e, {
    updated := ?_
    posted := ?_
    accountId := hcases h'.accountId (Option.some.inj hrow.accountId).symm
    balance := hcases h'.balance (Option.some.inj hrow.balanceAfter).symm
    createdAt := hcases h'.createdAt hcreated
    accounts := ?_
    entries := ?_
    locked := hcases (fun p hp => List.mem_append_left _ (h'.locked p hp))
      (List.mem_append_right _ (by simp [hstamp]))
    free := hcases h'.free hfree.1 }⟩
  · rw [updated, List.filterMap_append, ← updated, h'.updated]
    simp [Write.account?]
  · rw [posted, List.filterMap_append, ← posted, h'.posted]
    simp [Write.ledgerEntry?]
  · simpa using h'.accounts
  · rw [List.map_append, List.map_append, List.nodup_append]
    refine ⟨h'.entries, by simp, ?_⟩
    rintro k hk k' hk' rfl
    obtain ⟨e', he', rfl⟩ := List.mem_map.1 hk
    simp only [List.map_cons, List.map_nil, List.mem_singleton] at hk'
    exact hfree.2 e' he' hk'

/-- **A posting** adds a pair. -/
theorem wp_postSnapshot {site : ℕ} {transactionId : Uuid} {accountId : Option Uuid}
    {entryType : EntryType} {amount : Numeric} (hnew : ∀ p ∈ ps, accountId ≠ some p.1.id)
    (h : Snapshots ctx ps [] own held db) :
    Call.wp Db.apply snapshotting
      (postEntry ctx site args transactionId accountId entryType amount)
      (fun _ own held db => ∃ p : Account × LedgerEntry, accountId = some p.1.id ∧
        Snapshots ctx (ps ++ [p]) [] own held db) own held db := by
  rw [postEntry, Call.wp_bind]
  refine Call.wp_mono (fun b own held db h => ?_) (wp_moveBalance hnew h)
  rcases h with rfl | ⟨a, rfl, rfl, h⟩
  · -- no account, no balance to record
    rw [insertLedgerEntry, Call.wp_bind, Call.wp_evaluate]
    refine ⟨fun uid _ => ?_, fun _ _ => trivial⟩
    rw [Call.wp_statement]
    intro db' _ _
    refine ⟨fun ws _ hexec => ?_, fun _ _ => trivial⟩
    obtain ⟨e, hrow, -⟩ := bind_eq_ok.1 hexec
    cases (newLedgerEntry_ok hrow).balanceAfter
  · refine Call.wp_mono (fun _ own held db h => ?_) (wp_recordBalance h)
    obtain ⟨e, h⟩ := h
    exact ⟨(a, e), rfl, h⟩

/-- What a call knows when it returns. -/
def Paired (ctx : Context) : Assertion Db Write LockKey := fun own held db =>
  ∃ ps, Snapshots ctx ps [] own held db

/-- **The writes of a transfer** are paired, because its accounts differ. -/
theorem wp_pairTransfer (h : Snapshots ctx [] [] own held db) :
    Call.wp Db.apply snapshotting (postTransfer ctx args) (fun _ => Paired ctx) own held db := by
  have haudit : ∀ {t : Transaction} {ps own held db}, Snapshots ctx ps [] own held db →
      Call.wp Db.apply snapshotting (do
        let _ ← writeAuditLog ctx (ctx.uuid 8) .create "transactions" (some t.id) none
          (some [("type", .ofText (args.type.map TransactionType.label)),
            ("amount", .ofNumeric args.amount), ("source", .ofUuid args.sourceAccount),
            ("dest", .ofUuid args.destAccount),
            ("idempotency_key", .ofText args.idempotencyKey)])
        return t) (fun _ => Paired ctx) own held db := by
    intro t ps own held db h
    rw [Call.wp_bind]
    exact Call.wp_mono (fun _ _ _ _ h => ⟨ps, h⟩) ((robust_snapshots ctx ps []).wp
      ((quiet_writeAuditLog _ _ _ _ _ _ _).mono (fun _ => Write.Quiet.unbooked) fun _ _ => trivial)
      h)
  rw [postTransfer, Call.wp_bind]
  refine Call.wp_mono (fun t own held db h => ?_) (wp_insertTransaction (fun _ _ => trivial)
    (fun _ => Write.Quiet.unbooked) (fun _ => ⟨rfl, rfl⟩) (robust_snapshots ctx [] []) h)
  obtain ⟨h, hrow⟩ := h
  rw [Call.wp_bind, Call.wp_evaluate]
  refine ⟨fun amount _ => ?_, fun _ _ => trivial⟩
  rw [Call.wp_bind]
  refine Call.wp_mono (fun _ own held db h => ?_) (wp_postSnapshot (by simp) h)
  obtain ⟨p, hsource, h⟩ := h
  rw [Call.wp_bind, Call.wp_onlyIf]
  refine ⟨fun _ => ?_, fun _ => haudit h⟩
  have hdest : ∀ q ∈ [] ++ [p], args.destAccount ≠ some q.1.id := by
    intro q hq
    cases List.mem_singleton.1 hq
    exact hrow.dest_ne hsource
  refine Call.wp_mono (fun _ own held db h => ?_) (wp_postSnapshot hdest h)
  obtain ⟨q, -, h⟩ := h
  exact haudit h

end

/-! ## Runs -/

/-- Transfers within organization `1`, the `n`-th of which starts at time `n`. -/
def overtaking (n : ℕ) : Context × TransactionArgs :=
  (.plain true 7 1 n (300 + 10 * n), RpcCall.transferArgs 10 100 (some 200) none)

/-- Two accounts without entries. -/
theorem snapshotsAgree_openings : SnapshotsAgree (RpcCall.openings.foldl RpcCall.step Db.starter) := by
  rintro a - e ⟨he, -⟩
  have hnone : (RpcCall.openings.foldl RpcCall.step Db.starter).ledgerEntries.rows.isEmpty = true := by
    decide +kernel
  rw [Table.mem_def, List.isEmpty_iff.1 hnone] at he
  cases he

/-- A latest entry that does not record the balance of its account. -/
def staleSnapshot (db : Db) : Bool :=
  db.accounts.rows.any fun a => db.ledgerEntries.rows.any fun e =>
    decide (e.accountId = a.id) && decide (e.balanceAfter ≠ a.balance.1) &&
      db.ledgerEntries.rows.all fun e' =>
        decide (e'.accountId = e.accountId → e'.createdAt ≤ e.createdAt)

theorem not_snapshotsAgree_of_stale {db : Db} (h : staleSnapshot db = true) :
    ¬ SnapshotsAgree db := by
  intro hagree
  obtain ⟨a, ha, h⟩ := List.any_eq_true.1 h
  obtain ⟨e, he, h⟩ := List.any_eq_true.1 h
  simp only [Bool.and_eq_true, decide_eq_true_eq, List.all_eq_true] at h
  obtain ⟨⟨haccount, hbalance⟩, hlatest⟩ := h
  exact hbalance (hagree a ha e ⟨he, hlatest⟩ haccount)

end EnterpriseSystem
