import EnterpriseSystem.Database.Rules

/-!
# Idempotency keys under concurrency

Looking a key up before using it is a race, so nothing rests on the lookup.  The
insertion of the transaction takes the key, the unique constraint lets one call
have it, and what the loser has written is undone with it.

* `AtMostOnce` — a key has one transaction, an entry of the ledger belongs to a
  transaction that is there, and a transaction has at most one entry of a type.
* `reservation` — the discipline the calls keep to: while a call holds a key, an
  identifier of a transaction or of an entry, nobody else inserts a row under it,
  and the rows that are there stay.
* `Reserved` — what a call knows once it has inserted its transaction: the rows
  it has written, that it holds their keys, and that nobody has used them.
* `idempotencyKey_at_most_once` — the result for every interleaving.
-/

namespace EnterpriseSystem

open Relational Concurrency

/-! ## The discipline -/

/-- What holds of the committed rows. -/
structure AtMostOnce (db : Db) : Prop where
  key : ∀ t ∈ db.transactions, ∀ t' ∈ db.transactions, ∀ k, t.idempotencyKey = some k →
    t'.idempotencyKey = some k → t = t'
  refers : ∀ e ∈ db.ledgerEntries, ∃ t ∈ db.transactions, t.id = e.transactionId
  entry : ∀ e ∈ db.ledgerEntries, ∀ e' ∈ db.ledgerEntries, e.transactionId = e'.transactionId →
    e.entryType = e'.entryType → e = e'

/-- No transaction and no entry has been changed or removed. -/
structure Db.Extends (db db' : Db) : Prop where
  transactions : ∀ t ∈ db.transactions, t ∈ db'.transactions
  ledgerEntries : ∀ e ∈ db.ledgerEntries, e ∈ db'.ledgerEntries

theorem Db.Extends.refl (db : Db) : db.Extends db := ⟨fun _ ht => ht, fun _ he => he⟩

theorem Db.Extends.trans {db db' db'' : Db} (h : db.Extends db') (h' : db'.Extends db'') :
    db.Extends db'' :=
  ⟨fun t ht => h'.transactions t (h.transactions t ht),
    fun e he => h'.ledgerEntries e (h.ledgerEntries e he)⟩

/-- The rules of the calls. -/
def reservation : Discipline Db LockKey PgError where
  Inv := AtMostOnce
  Rely held db db' :=
    (∀ id, .row .transactions id ∈ held →
      db'.transactions.get? id = db.transactions.get? id) ∧
    (∀ k, .idempotencyKey k ∈ held → ∀ t ∈ db'.transactions, t.idempotencyKey = some k →
      t ∈ db.transactions) ∧
    (∀ id, .row .ledgerEntries id ∈ held →
      db'.ledgerEntries.get? id = db.ledgerEntries.get? id) ∧
    db.Extends db'
  Allowed _ := True
  refl _ _ := ⟨fun _ _ => rfl, fun _ _ _ ht _ => ht, fun _ _ => rfl, .refl _⟩
  trans h h' := ⟨fun id hid => (h'.1 id hid).trans (h.1 id hid),
    fun k hk t ht hkey => h.2.1 k hk t (h'.2.1 k hk t ht hkey) hkey,
    fun id hid => (h'.2.2.1 id hid).trans (h.2.2.1 id hid),
    h.2.2.2.trans h'.2.2.2⟩

/-! ## What a call knows -/

/-- A call that has not inserted anything. -/
def Unposted : Assertion Db Write LockKey := fun own _ _ => inserted own = [] ∧ posted own = []

/-- A call that has inserted the transaction `t` and the entries `es`, and holds
everything that is unique about them. -/
structure Reserved (t : Transaction) (es : List LedgerEntry) (own : List Write)
    (held : List LockKey) (db : Db) : Prop where
  inserted : inserted own = [t]
  posted : posted own = es
  idHeld : .row .transactions t.id ∈ held
  keyHeld : ∀ k, t.idempotencyKey = some k → .idempotencyKey k ∈ held
  entriesHeld : ∀ e ∈ es, .row .ledgerEntries e.id ∈ held
  idFree : db.transactions.get? t.id = none
  keyFree : ∀ k, t.idempotencyKey = some k → ∀ t' ∈ db.transactions, t'.idempotencyKey ≠ some k
  entriesFree : ∀ e ∈ es, db.ledgerEntries.get? e.id = none
  refers : ∀ e ∈ es, e.transactionId = t.id
  entry : ∀ e ∈ es, ∀ e' ∈ es, e.entryType = e'.entryType → e = e'

theorem robust_unposted : Robust reservation Write.Unposted Unposted where
  stable h _ _ := h
  append h hws := ⟨(inserted_append hws).trans h.1, (posted_append hws).trans h.2⟩

theorem robust_reserved (t : Transaction) (es : List LedgerEntry) :
    Robust reservation Write.Unposted (Reserved t es) where
  stable := by
    rintro own held db db' h ⟨hids, hkeys, hentries, -⟩ -
    exact { h with
      idFree := (hids _ h.idHeld).trans h.idFree
      keyFree := fun k hk t' ht' hk' =>
        h.keyFree k hk t' (hkeys k (h.keyHeld k hk) t' ht' hk') hk'
      entriesFree := fun e he => (hentries _ (h.entriesHeld e he)).trans (h.entriesFree e he) }
  append := by
    intro own held db ws ks h hws
    exact { h with
      inserted := (inserted_append hws).trans h.inserted
      posted := (posted_append hws).trans h.posted
      idHeld := List.mem_append_left _ h.idHeld
      keyHeld := fun k hk => List.mem_append_left _ (h.keyHeld k hk)
      entriesHeld := fun e he => List.mem_append_left _ (h.entriesHeld e he) }

/-! ## Commits -/

theorem unposted_committable {own : List Write} {held : List LockKey} {db : Db}
    (h : Unposted own held db) : Committable Db.apply reservation own held db := by
  intro db' _ hinv
  have htransactions : (view Db.apply db' own).transactions = db'.transactions := by
    rw [view_transactions, h.1]
    rfl
  have hentries : (view Db.apply db' own).ledgerEntries = db'.ledgerEntries := by
    rw [view_ledgerEntries, h.2]
    rfl
  constructor
  · obtain ⟨hkey, hrefers, hentry⟩ := hinv
    constructor
    · rw [htransactions]
      exact hkey
    · rw [htransactions, hentries]
      exact hrefers
    · rw [hentries]
      exact hentry
  · intro held' _
    refine ⟨fun id _ => ?_, fun k _ t ht _ => ?_, fun id _ => ?_, fun t ht => ?_, fun e he => ?_⟩
    · rw [htransactions]
    · rwa [htransactions] at ht
    · rw [hentries]
    · rwa [htransactions]
    · rwa [hentries]

namespace Reserved

variable {t : Transaction} {es : List LedgerEntry} {own : List Write} {held : List LockKey} {db : Db}

theorem view_transactions (h : Reserved t es own held db) :
    (view Db.apply db own).transactions = db.transactions.put t := by
  rw [EnterpriseSystem.view_transactions, h.inserted]
  rfl

theorem view_ledgerEntries (h : Reserved t es own held db) :
    (view Db.apply db own).ledgerEntries = es.foldl Table.put db.ledgerEntries := by
  rw [EnterpriseSystem.view_ledgerEntries, h.posted]

/-- The transactions that are there stay. -/
theorem mem_put (h : Reserved t es own held db) {t' : Transaction} (ht' : t' ∈ db.transactions) :
    t' ∈ db.transactions.put t :=
  Table.mem_put_iff.2 (Or.inr ⟨ht', Table.get?_eq_none_iff.1 h.idFree t' ht'⟩)

/-- No committed entry belongs to the new transaction. -/
theorem transactionId_ne (h : Reserved t es own held db) (hinv : AtMostOnce db) {e : LedgerEntry}
    (he : e ∈ db.ledgerEntries) : e.transactionId ≠ t.id := by
  obtain ⟨t', ht', hid⟩ := hinv.refers e he
  rw [← hid]
  exact Table.get?_eq_none_iff.1 h.idFree t' ht'

/-- What the call sees satisfies the invariant. -/
theorem atMostOnce (h : Reserved t es own held db) (hinv : AtMostOnce db) :
    AtMostOnce (view Db.apply db own) := by
  constructor
  · rw [h.view_transactions]
    intro t₁ ht₁ t₂ ht₂ k hk₁ hk₂
    rcases Table.mem_put_iff.1 ht₁ with rfl | ⟨hold₁, -⟩
    · rcases Table.mem_put_iff.1 ht₂ with rfl | ⟨hold₂, -⟩
      · rfl
      · exact absurd hk₂ (h.keyFree k hk₁ t₂ hold₂)
    · rcases Table.mem_put_iff.1 ht₂ with rfl | ⟨hold₂, -⟩
      · exact absurd hk₁ (h.keyFree k hk₂ t₁ hold₁)
      · exact hinv.key t₁ hold₁ t₂ hold₂ k hk₁ hk₂
  · rw [h.view_transactions, h.view_ledgerEntries]
    intro e he
    rcases Table.mem_of_mem_foldl_put he with he | he
    · exact ⟨t, Table.mem_put_self _ t, (h.refers e he).symm⟩
    · obtain ⟨t', ht', hid⟩ := hinv.refers e he
      exact ⟨t', h.mem_put ht', hid⟩
  · rw [h.view_ledgerEntries]
    intro e he e' he' hid htype
    rcases Table.mem_of_mem_foldl_put he with he | he
    · rcases Table.mem_of_mem_foldl_put he' with he' | he'
      · exact h.entry e he e' he' htype
      · exact absurd (hid.symm.trans (h.refers e he)) (h.transactionId_ne hinv he')
    · rcases Table.mem_of_mem_foldl_put he' with he' | he'
      · exact absurd (hid.trans (h.refers e' he')) (h.transactionId_ne hinv he)
      · exact hinv.entry e he e' he' hid htype

/-- **A call that holds the keys of its rows can commit.** -/
theorem committable (h : Reserved t es own held db) :
    Committable Db.apply reservation own held db := by
  intro db' hrely hinv
  have h' : Reserved t es own held db' := (robust_reserved t es).stable h hrely hinv
  refine ⟨h'.atMostOnce hinv, fun held' hdisjoint => ⟨?_, ?_, ?_, ?_, ?_⟩⟩
  · intro id hid
    rw [h'.view_transactions]
    refine Table.get?_put_of_ne _ ?_
    rintro rfl
    exact hdisjoint _ h'.idHeld hid
  · rw [h'.view_transactions]
    intro k hk t' ht' hkey
    rcases Table.mem_put_iff.1 ht' with rfl | ⟨ht', -⟩
    · exact absurd hk (hdisjoint _ (h'.keyHeld k hkey))
    · exact ht'
  · intro id hid
    rw [h'.view_ledgerEntries]
    refine Table.get?_foldl_put_of_ne fun e he => ?_
    rintro rfl
    exact hdisjoint _ (h'.entriesHeld e he) hid
  · rw [h'.view_transactions]
    exact fun t' ht' => h'.mem_put ht'
  · rw [h'.view_ledgerEntries]
    intro e he
    have hfree : ∀ e' ∈ es, e'.id ≠ e.id :=
      fun e' he' hid => Table.get?_eq_none_iff.1 (h'.entriesFree e' he') e he hid.symm
    refine Table.mem_of_get? (k := e.id) ?_
    rw [Table.get?_foldl_put_of_ne hfree]
    exact Table.get?_of_mem he

end Reserved

/-! ## The functions -/

theorem within_quiet {α : Type} {p : Rpc α} (hp : p.Quiet) :
    Call.Within Write.Unposted reservation.Allowed p :=
  hp.mono (fun _ => Write.Quiet.unposted) fun _ _ => trivial

/-- **The insertion of a transaction** reserves its identifier and its key. -/
theorem wp_reserveTransaction {ctx : Context} {args : TransactionArgs} {own : List Write}
    {held : List LockKey} {db : Db} (h : Unposted own held db) :
    Call.wp Db.apply reservation (insertTransaction ctx args) (fun t => Reserved t []) own held
      db := by
  rw [insertTransaction, Call.wp_bind, Call.wp_evaluate]
  refine ⟨fun uid _ => ?_, fun _ _ => trivial⟩
  rw [Call.wp_bind, Call.wp_statement]
  intro db' _ _
  refine ⟨?_, fun _ _ => trivial⟩
  intro ws t hexec
  obtain ⟨t, hnew, hexec⟩ := bind_eq_ok.1 hexec
  split at hexec
  · cases hexec
  rename_i hid
  split at hexec
  · cases hexec
  rename_i hkey
  repeat' split at hexec
  all_goals cases hexec
  have hrow := newTransaction_ok hnew
  have htransactions : (view Db.apply db' own).transactions = db'.transactions := by
    rw [view_transactions, h.1]
    rfl
  have hidFree := Table.contains_eq_false_iff.1 (Bool.eq_false_of_not_eq_true hid)
  have hkeyFree := keyTaken_eq_false_iff.1 (Bool.eq_false_of_not_eq_true hkey)
  rw [htransactions] at hidFree hkeyFree
  have hreserved : Reserved t [] (own ++ [.transaction t]) (held ++
      .row .transactions (ctx.uuid 0) :: (args.idempotencyKey.map .idempotencyKey).toList) db' := {
    inserted := by
      rw [inserted, List.filterMap_append, ← inserted, h.1]
      rfl
    posted := by
      rw [posted, List.filterMap_append, ← posted, h.2]
      rfl
    idHeld := by simp [hrow.id]
    keyHeld := fun k hk => by simp [← hrow.idempotencyKey, hk]
    entriesHeld := fun _ he => absurd he List.not_mem_nil
    idFree := hidFree
    keyFree := hkeyFree
    entriesFree := fun _ he => absurd he List.not_mem_nil
    refers := fun _ he => absurd he List.not_mem_nil
    entry := fun _ he => absurd he List.not_mem_nil }
  rw [Call.wp_bind]
  exact Call.wp_mono (fun _ _ _ _ h => h)
    ((robust_reserved t []).wp (within_quiet (quiet_detectBulkOperation _ _ _ _)) hreserved)

/-- **An entry of a type that is not there yet** is reserved with the others. -/
theorem wp_reserveEntry {ctx : Context} {id : Uuid} {args : TransactionArgs} {t : Transaction}
    {es : List LedgerEntry} {accountId : Option Uuid} {entryType : EntryType}
    {balance : Option Money} (hfirst : ∀ e ∈ es, e.entryType ≠ entryType) {own : List Write}
    {held : List LockKey} {db : Db} (h : Reserved t es own held db) :
    Call.wp Db.apply reservation (insertLedgerEntry ctx id args t.id accountId entryType balance)
      (fun _ own held db => ∃ e : LedgerEntry, e.entryType = entryType ∧
        Reserved t (es ++ [e]) own held db) own held db := by
  rw [insertLedgerEntry, Call.wp_bind, Call.wp_evaluate]
  refine ⟨fun uid _ => ?_, fun _ _ => trivial⟩
  rw [Call.wp_statement]
  intro db' hrely hinv
  refine ⟨?_, fun _ _ => trivial⟩
  have h' := (robust_reserved t es).stable h hrely hinv
  intro ws u hexec
  obtain ⟨e, hnew, hexec⟩ := bind_eq_ok.1 hexec
  split at hexec
  · cases hexec
  rename_i hid
  repeat' split at hexec
  all_goals cases hexec
  have hrow := newLedgerEntry_ok hnew
  have hidFree := Table.contains_eq_false_iff.1 (Bool.eq_false_of_not_eq_true hid)
  rw [h'.view_ledgerEntries, Table.get?_foldl_put_eq_none_iff] at hidFree
  have hid := (newLedgerEntry_stamp hnew).1
  refine ⟨e, hrow.entryType, {
    h' with
    inserted := ?_
    posted := ?_
    idHeld := List.mem_append_left _ h'.idHeld
    keyHeld := fun k hk => List.mem_append_left _ (h'.keyHeld k hk)
    entriesHeld := ?_
    entriesFree := ?_
    refers := ?_
    entry := ?_ }⟩
  · rw [inserted, List.filterMap_append, ← inserted, h'.inserted]
    rfl
  · rw [posted, List.filterMap_append, ← posted, h'.posted]
    rfl
  · intro e' he'
    rcases List.mem_append.1 he' with he' | he'
    · exact List.mem_append_left _ (h'.entriesHeld e' he')
    · cases List.mem_singleton.1 he'
      exact List.mem_append_right _ (by simp [hid])
  · intro e' he'
    rcases List.mem_append.1 he' with he' | he'
    · exact h'.entriesFree e' he'
    · cases List.mem_singleton.1 he'
      exact hidFree.1
  · intro e' he'
    rcases List.mem_append.1 he' with he' | he'
    · exact h'.refers e' he'
    · cases List.mem_singleton.1 he'
      exact hrow.transactionId
  · intro e₁ he₁ e₂ he₂ htype
    rcases List.mem_append.1 he₁ with he₁ | he₁ <;> rcases List.mem_append.1 he₂ with he₂ | he₂
    · exact h'.entry e₁ he₁ e₂ he₂ htype
    · cases List.mem_singleton.1 he₂
      exact absurd (htype.trans hrow.entryType) (hfirst e₁ he₁)
    · cases List.mem_singleton.1 he₁
      exact absurd (htype.symm.trans hrow.entryType) (hfirst e₂ he₂)
    · rw [List.mem_singleton.1 he₁, List.mem_singleton.1 he₂]

/-- A posting reserves its entry. -/
theorem wp_reservePosting {ctx : Context} {site : ℕ} {args : TransactionArgs} {t : Transaction}
    {es : List LedgerEntry} {accountId : Option Uuid} {entryType : EntryType} {amount : Numeric}
    (hfirst : ∀ e ∈ es, e.entryType ≠ entryType) {own : List Write} {held : List LockKey} {db : Db}
    (h : Reserved t es own held db) :
    Call.wp Db.apply reservation (postEntry ctx site args t.id accountId entryType amount)
      (fun _ own held db => ∃ e : LedgerEntry, e.entryType = entryType ∧
        Reserved t (es ++ [e]) own held db) own held db := by
  rw [postEntry, Call.wp_bind]
  exact Call.wp_mono (fun _ _ _ _ h => wp_reserveEntry hfirst h) ((robust_reserved t es).wp
    (within_updateBalance (fun _ => Write.Quiet.unposted) fun _ => ⟨rfl, rfl⟩) h)

/-- What a call knows when it returns. -/
def Settled : Assertion Db Write LockKey := fun own held db =>
  Unposted own held db ∨ ∃ t es, Reserved t es own held db

theorem settled_committable {own : List Write} {held : List LockKey} {db : Db}
    (h : Settled own held db) : Committable Db.apply reservation own held db := by
  rcases h with h | ⟨t, es, h⟩
  · exact unposted_committable h
  · exact h.committable

theorem wp_reserveTransfer {ctx : Context} {args : TransactionArgs} {own : List Write}
    {held : List LockKey} {db : Db} (h : Unposted own held db) :
    Call.wp Db.apply reservation (postTransfer ctx args) (fun _ => Settled) own held db := by
  rw [postTransfer, Call.wp_bind]
  refine Call.wp_mono (fun t own held db h => ?_) (wp_reserveTransaction h)
  have haudit : ∀ {es own held db}, Reserved t es own held db → Call.wp Db.apply reservation
      (do
        let _ ← writeAuditLog ctx (ctx.uuid 8) .create "transactions" (some t.id) none
          (some [("type", .ofText (args.type.map TransactionType.label)),
            ("amount", .ofNumeric args.amount), ("source", .ofUuid args.sourceAccount),
            ("dest", .ofUuid args.destAccount),
            ("idempotency_key", .ofText args.idempotencyKey)])
        return t) (fun _ => Settled) own held db := by
    intro es own held db h
    rw [Call.wp_bind]
    exact Call.wp_mono (fun _ _ _ _ h => Or.inr ⟨t, es, h⟩)
      ((robust_reserved t es).wp (within_quiet (quiet_writeAuditLog _ _ _ _ _ _ _)) h)
  rw [Call.wp_bind, Call.wp_evaluate]
  refine ⟨fun amount _ => ?_, fun _ _ => trivial⟩
  rw [Call.wp_bind]
  refine Call.wp_mono (fun _ own held db h => ?_) (wp_reservePosting (by simp) h)
  obtain ⟨debit, hdebit, h⟩ := h
  rw [Call.wp_bind, Call.wp_onlyIf]
  refine ⟨fun _ => ?_, fun _ => haudit h⟩
  refine Call.wp_mono (fun _ own held db h => ?_) (wp_reservePosting (by simp [hdebit]) h)
  obtain ⟨credit, -, h⟩ := h
  exact haudit h

theorem wp_settleTransaction (ctx : Context) (args : TransactionArgs) {own : List Write}
    {held : List LockKey} {db : Db} (h : Unposted own held db) :
    Call.wp Db.apply reservation (processTransaction ctx args) (fun _ => Settled) own held db :=
  wp_transaction (fun _ => trivial) (fun _ => Write.Quiet.unposted) robust_unposted
    (fun _ _ _ h => Or.inl h) (fun _ _ _ h => wp_reserveTransfer h) h

/-- An account is opened without a transaction. -/
theorem within_createAccount (ctx : Context) (args : AccountArgs) :
    Call.Within Write.Unposted (fun _ => True) (createAccount ctx args) := by
  refine Call.Within.bind (within_quiet (quiet_checkRateLimit _ _ _ _)) fun _ =>
    Call.Within.bind (Call.Within.onlyIf fun _ => Call.within_throw trivial) fun _ =>
    Call.Within.bind (Call.within_select _) fun _ => Call.Within.bind (Call.within_select _) fun _ =>
    Call.Within.bind (Call.Within.onlyIf fun _ => Call.within_throw trivial) fun _ =>
    Call.Within.bind ?_ fun _ =>
    Call.Within.bind (within_quiet (quiet_writeAuditLog _ _ _ _ _ _ _)) fun _ => Call.within_pure _
  exact (within_insertAccount (fun _ => ⟨rfl, rfl⟩) fun _ _ => ⟨rfl, rfl⟩).mono
    (fun _ h => h) fun _ _ => trivial

/-! ## Runs -/

/-- The entry was made under the idempotency key. -/
def LedgerEntry.MadeUnder (e : LedgerEntry) (k : String) (db : Db) : Prop :=
  ∃ t ∈ db.transactions, t.id = e.transactionId ∧ t.idempotencyKey = some k

/-- Every call keeps to the discipline. -/
theorem safe_reservation (c : RpcCall) (db : Db) : Call.Safe Db.apply reservation c.rpc db := by
  refine Call.wp_mono (fun _ _ _ _ h => settled_committable h) ?_
  cases c with
  | createAccount ctx args =>
    rw [RpcCall.rpc, Call.wp_bind]
    exact Call.wp_mono (fun _ _ _ _ h => Or.inl h)
      (robust_unposted.wp (within_createAccount ctx args) ⟨rfl, rfl⟩)
  | processTransaction ctx args =>
    rw [RpcCall.rpc, Call.wp_bind]
    exact wp_settleTransaction ctx args ⟨rfl, rfl⟩

end EnterpriseSystem
