import EnterpriseSystem.Base.History
import EnterpriseSystem.Database.ConcurrentLedger

/-!
# What the audit log tells of the books

The hashes of the audit log do not chain, but its rows are complete: in any interleaving they tell
how every account and every transaction came about, and how every balance got where it is.

* `balanceTrail` — the changes of the balance of an account, as the audit log tells them.
* `AccountsTold` — the trail of every account leads to its balance, and its opening is told once.
* `TransactionsTold` — every transaction is told once.
* `auditLog_tells` — the result for every interleaving.
-/

namespace EnterpriseSystem

open Relational Concurrency History

/-! ## What is told -/

/-- The balance as the audit log has it. -/
def balanceData (balance : Money) : Option JsonObject :=
  some [("balance", .ofNumeric balance.toNumeric)]

/-- The change of the balance of the account that a row tells, if it tells one. -/
def AuditEntry.balanceChange? (id : Uuid) (e : AuditEntry) : Option (Change (Option JsonObject)) :=
  if e.action = .update ∧ e.tableName = "accounts" ∧ e.recordId = some id then
    some ⟨e.oldData, e.newData⟩
  else none

/-- The changes of the balance of an account. -/
def balanceTrail (id : Uuid) (log : Table AuditEntry.id) : List (Change (Option JsonObject)) :=
  log.rows.filterMap (AuditEntry.balanceChange? id)

/-- The rows that tell how a row of a table came about. -/
def creations (tableName : String) (id : Uuid) (log : Table AuditEntry.id) : List AuditEntry :=
  log.rows.filter fun e =>
    decide (e.action = .create ∧ e.tableName = tableName ∧ e.recordId = some id)

/-- The balance that the trail of an account starts from. -/
def startBalance (as₀ : Table Account.id) (id : Uuid) : Money :=
  ((as₀.get? id).map fun a => a.balance.1).getD Fixed.zero

/-- **The accounts are told**, from the accounts `as₀` on. -/
structure AccountsTold (as₀ as : Table Account.id) (log : Table AuditEntry.id) : Prop where
  /-- Nothing is told of other accounts. -/
  known : ∀ e ∈ log, e.tableName = "accounts" → ∃ a ∈ as, e.recordId = some a.id
  /-- The accounts stay. -/
  stay : ∀ a ∈ as₀, ∃ a' ∈ as, a'.id = a.id
  /-- Each change takes up where the one before it left, and the last one ends at the balance. -/
  leads : ∀ a ∈ as, Leads (balanceData (startBalance as₀ a.id)) (balanceTrail a.id log)
    (balanceData a.balance.1)
  /-- A new account is told once, with its name, its type and its currency. -/
  opened : ∀ a ∈ as, (∃ a₀ ∈ as₀, a₀.id = a.id) ∨ ∃ e, creations "accounts" a.id log = [e] ∧
    e.newData = some [("name", .text a.name.1), ("type", .text a.type.label),
      ("currency", .text a.currency.1)]

/-- **The transactions are told**, from the transactions `ts₀` on. -/
structure TransactionsTold (ts₀ ts : Table Transaction.id) (log : Table AuditEntry.id) : Prop where
  /-- Nothing is told of other transactions. -/
  known : ∀ e ∈ log, e.tableName = "transactions" → ∃ t ∈ ts, e.recordId = some t.id
  /-- The transactions stay as they are. -/
  stay : ∀ t ∈ ts₀, t ∈ ts
  /-- A new transaction is told once, with its type, its accounts, its key and an amount that it
  has been rounded from. -/
  made : ∀ t ∈ ts, t ∈ ts₀ ∨ ∃ e x, creations "transactions" t.id log = [e] ∧
    Fixed.store 19 4 x = some t.amount.1 ∧
    e.newData = some [("type", .text t.type.label), ("amount", .ofNumeric (some x)),
      ("source", .ofUuid t.sourceAccountId), ("dest", .ofUuid t.destAccountId),
      ("idempotency_key", .ofText t.idempotencyKey)]

/-! ## One more row -/

section

variable {log : Table AuditEntry.id} {e : AuditEntry}

theorem balanceTrail_put (hfresh : log.get? e.id = none) (id : Uuid) :
    balanceTrail id (log.put e) = balanceTrail id log ++ (e.balanceChange? id).toList := by
  rw [balanceTrail, Table.rows_put_of_get?_none hfresh, List.filterMap_append, ← balanceTrail]
  cases hchange : e.balanceChange? id <;> simp [hchange]

theorem creations_put (hfresh : log.get? e.id = none) (tableName : String) (id : Uuid) :
    creations tableName id (log.put e) = creations tableName id log ++
      if e.action = .create ∧ e.tableName = tableName ∧ e.recordId = some id then [e] else [] := by
  rw [creations, Table.rows_put_of_get?_none hfresh, List.filter_append, ← creations,
    List.filter_singleton]
  simp

theorem mem_put_log (hfresh : log.get? e.id = none) {e' : AuditEntry} :
    e' ∈ log.put e ↔ e' ∈ log ∨ e' = e := by
  rw [Table.mem_def, Table.rows_put_of_get?_none hfresh, List.mem_append, List.mem_singleton]
  rfl

/-- Another balance is told by other data. -/
theorem balanceData_ne {balance balance' : Balance} (hne : balance.1 ≠ balance'.1) :
    balanceData balance.1 ≠ balanceData balance'.1 := by
  obtain ⟨n, hn, hbalance⟩ := exists_units_of_inBalanceRange balance.2
  obtain ⟨n', hn', hbalance'⟩ := exists_units_of_inBalanceRange balance'.2
  rw [hbalance, hbalance'] at hne ⊢
  intro hdata
  refine hne ?_
  simp only [balanceData, Fixed.toNumeric_units, Value.ofNumeric, Option.some.injEq, List.cons.injEq,
    Prod.mk.injEq, true_and, and_true, Value.number.injEq, Numeric.finite.injEq] at hdata
  have hunits : (n : ℚ) = n' := by
    field_simp at hdata
    exact hdata
  obtain rfl : n = n' := by exact_mod_cast hunits
  rfl

/-- A creation that nothing has been told of before. -/
theorem creations_eq_nil {tableName : String} {id : Uuid}
    (h : ∀ e ∈ log, e.tableName = tableName → e.recordId ≠ some id) :
    creations tableName id log = [] := by
  refine List.filter_eq_nil_iff.2 fun e he => ?_
  have hne := h e he
  simp only [decide_eq_true_eq, not_and]
  exact fun _ => hne

end

/-! ## The accounts -/

namespace AccountsTold

variable {as₀ as : Table Account.id} {log : Table AuditEntry.id} {e : AuditEntry}

/-- A row about another table tells nothing of the accounts. -/
theorem other (h : AccountsTold as₀ as log) (hfresh : log.get? e.id = none)
    (hother : e.tableName ≠ "accounts") : AccountsTold as₀ as (log.put e) where
  known e' he' htable := by
    rcases (mem_put_log hfresh).1 he' with he' | rfl
    · exact h.known e' he' htable
    · exact absurd htable hother
  stay := h.stay
  leads a ha := by
    have hnone : e.balanceChange? a.id = none := if_neg fun hc => hother hc.2.1
    rw [balanceTrail_put hfresh, hnone, Option.toList_none, List.append_nil]
    exact h.leads a ha
  opened a ha := by
    rw [creations_put hfresh, if_neg fun hc => hother hc.2.1, List.append_nil]
    exact h.opened a ha

/-- **A new account** is told by the row of its opening. -/
theorem opening (h : AccountsTold as₀ as log) {a : Account} (hnew : as.get? a.id = none)
    (hzero : a.balance.1 = Fixed.zero) (hfresh : log.get? e.id = none) (haction : e.action = .create)
    (htable : e.tableName = "accounts") (hrecord : e.recordId = some a.id)
    (hdata : e.newData = some [("name", .text a.name.1), ("type", .text a.type.label),
      ("currency", .text a.currency.1)]) : AccountsTold as₀ (as.put a) (log.put e) := by
  have huntold : ∀ e ∈ log, e.tableName = "accounts" → e.recordId ≠ some a.id := by
    intro e he htable hid
    obtain ⟨b, hb, hrecord⟩ := h.known e he htable
    obtain hba : b.id = a.id := Option.some.inj (hrecord.symm.trans hid)
    exact Table.get?_eq_none_iff.1 hnew b hb hba
  have hold : ∀ b ∈ as, b.id ≠ a.id := Table.get?_eq_none_iff.1 hnew
  have hnone : ∀ id, e.balanceChange? id = none := by
    intro id
    refine if_neg fun hc => ?_
    rw [haction] at hc
    cases hc.1
  refine ⟨?_, ?_, ?_, ?_⟩
  · intro e' he' htable'
    rcases (mem_put_log hfresh).1 he' with he' | rfl
    · obtain ⟨b, hb, hrecord⟩ := h.known e' he' htable'
      exact ⟨b, Table.mem_put_iff.2 (Or.inr ⟨hb, hold b hb⟩), hrecord⟩
    · exact ⟨a, Table.mem_put_self _ _, hrecord⟩
  · intro b hb
    obtain ⟨b', hb', hid⟩ := h.stay b hb
    exact ⟨b', Table.mem_put_iff.2 (Or.inr ⟨hb', hold b' hb'⟩), hid⟩
  · intro b hb
    rw [balanceTrail_put hfresh, hnone, Option.toList_none, List.append_nil]
    rcases Table.mem_put_iff.1 hb with rfl | ⟨hb, -⟩
    · have htrail : balanceTrail b.id log = [] := by
        refine List.filterMap_eq_nil_iff.2 fun e he => if_neg fun hc => ?_
        exact huntold e he hc.2.1 hc.2.2
      have hstart : startBalance as₀ b.id = Fixed.zero := by
        have hnone : as₀.get? b.id = none := by
          refine Table.get?_eq_none_iff.2 fun c hc hid => ?_
          obtain ⟨c', hc', hid'⟩ := h.stay c hc
          exact hold c' hc' (hid'.trans hid)
        rw [startBalance, hnone]
        rfl
      rw [htrail, hstart, hzero]
      exact .nil _
    · exact h.leads b hb
  · intro b hb
    rw [creations_put hfresh]
    rcases Table.mem_put_iff.1 hb with rfl | ⟨hb, hne⟩
    · refine Or.inr ⟨e, ?_, hdata⟩
      rw [creations_eq_nil huntold, if_pos ⟨haction, htable, hrecord⟩, List.nil_append]
    · have hother : e.recordId ≠ some b.id := by
        rw [hrecord]
        exact fun hc => hne (Option.some.inj hc).symm
      rw [if_neg fun hc => hother hc.2.2, List.append_nil]
      exact h.opened b hb

/-- The same accounts, with the trail of one of them and its balance one change longer. -/
theorem of_moved (h : AccountsTold as₀ as log) {old new : Account} {log' : Table AuditEntry.id}
    (hrow : as.get? old.id = some old) (hid : new.id = old.id) (hname : new.name = old.name)
    (htype : new.type = old.type) (hcurrency : new.currency = old.currency)
    (hknown : ∀ e ∈ log', e ∈ log ∨ e.recordId = some old.id)
    (hcreations : ∀ id, creations "accounts" id log' = creations "accounts" id log)
    (htrails : ∀ id, id ≠ old.id → balanceTrail id log' = balanceTrail id log)
    (hleads : Leads (balanceData (startBalance as₀ old.id)) (balanceTrail old.id log')
      (balanceData new.balance.1)) : AccountsTold as₀ (as.put new) log' := by
  have hkeeps : ∀ b ∈ as, ∃ b' ∈ as.put new, b'.id = b.id := by
    intro b hb
    by_cases hbid : b.id = new.id
    · exact ⟨new, Table.mem_put_self _ _, hbid.symm⟩
    · exact ⟨b, Table.mem_put_iff.2 (Or.inr ⟨hb, hbid⟩), rfl⟩
  refine ⟨?_, ?_, ?_, ?_⟩
  · intro e he htable
    rcases hknown e he with he | hrecord
    · obtain ⟨b, hb, hrecord⟩ := h.known e he htable
      obtain ⟨b', hb', hbid⟩ := hkeeps b hb
      exact ⟨b', hb', hrecord.trans (congrArg some hbid.symm)⟩
    · exact ⟨new, Table.mem_put_self _ _, hrecord.trans (congrArg some hid.symm)⟩
  · intro b hb
    obtain ⟨c, hc, hcid⟩ := h.stay b hb
    obtain ⟨c', hc', hcid'⟩ := hkeeps c hc
    exact ⟨c', hc', hcid'.trans hcid⟩
  · intro b hb
    rcases Table.mem_put_iff.1 hb with rfl | ⟨hb, hne⟩
    · rw [hid]
      exact hleads
    · rw [htrails b.id fun hc => hne (hc.trans hid.symm)]
      exact h.leads b hb
  · intro b hb
    rw [hcreations]
    rcases Table.mem_put_iff.1 hb with rfl | ⟨hb, -⟩
    · rw [hid, hname, htype, hcurrency]
      exact h.opened old (Table.mem_of_get? hrow)
    · exact h.opened b hb

/-- A balance that is written as it was need not be told. -/
theorem unmoved (h : AccountsTold as₀ as log) {old new : Account}
    (hrow : as.get? old.id = some old) (hid : new.id = old.id) (hname : new.name = old.name)
    (htype : new.type = old.type) (hcurrency : new.currency = old.currency)
    (hsame : old.balance.1 = new.balance.1) : AccountsTold as₀ (as.put new) log := by
  refine h.of_moved hrow hid hname htype hcurrency (fun _ he => Or.inl he) (fun _ => rfl)
    (fun _ _ => rfl) ?_
  rw [← hsame]
  exact h.leads old (Table.mem_of_get? hrow)

/-- **A new balance** is told by the row of its change. -/
theorem moved (h : AccountsTold as₀ as log) {old new : Account} (hrow : as.get? old.id = some old)
    (hid : new.id = old.id) (hname : new.name = old.name) (htype : new.type = old.type)
    (hcurrency : new.currency = old.currency) (hmoves : old.balance.1 ≠ new.balance.1)
    (hfresh : log.get? e.id = none) (haction : e.action = .update)
    (htable : e.tableName = "accounts") (hrecord : e.recordId = some old.id)
    (hold : e.oldData = balanceData old.balance.1) (hnew : e.newData = balanceData new.balance.1) :
    AccountsTold as₀ (as.put new) (log.put e) := by
  refine h.of_moved hrow hid hname htype hcurrency ?_ ?_ ?_ ?_
  · intro e' he'
    rcases (mem_put_log hfresh).1 he' with he' | rfl
    · exact Or.inl he'
    · exact Or.inr hrecord
  · intro id
    rw [creations_put hfresh, if_neg, List.append_nil]
    rw [haction]
    rintro ⟨hc, -⟩
    cases hc
  · intro id hne
    have hnone : e.balanceChange? id = none := by
      refine if_neg fun hc => hne ?_
      exact Option.some.inj (hc.2.2.symm.trans hrecord)
    rw [balanceTrail_put hfresh, hnone, Option.toList_none, List.append_nil]
  · have hchange : e.balanceChange? old.id = some ⟨balanceData old.balance.1,
        balanceData new.balance.1⟩ := by
      rw [AuditEntry.balanceChange?, if_pos ⟨haction, htable, hrecord⟩, hold, hnew]
    rw [balanceTrail_put hfresh, hchange]
    exact (h.leads old (Table.mem_of_get? hrow)).tell (balanceData_ne hmoves)

end AccountsTold

/-! ## The transactions -/

namespace TransactionsTold

variable {ts₀ ts : Table Transaction.id} {log : Table AuditEntry.id} {e : AuditEntry}

/-- A row about another table tells nothing of the transactions. -/
theorem other (h : TransactionsTold ts₀ ts log) (hfresh : log.get? e.id = none)
    (hother : e.tableName ≠ "transactions") : TransactionsTold ts₀ ts (log.put e) where
  known e' he' htable := by
    rcases (mem_put_log hfresh).1 he' with he' | rfl
    · exact h.known e' he' htable
    · exact absurd htable hother
  stay := h.stay
  made t ht := by
    rw [creations_put hfresh, if_neg fun hc => hother hc.2.1, List.append_nil]
    exact h.made t ht

/-- **A new transaction** is told by the row of its insertion. -/
theorem insertion (h : TransactionsTold ts₀ ts log) {t : Transaction} {x : Numeric}
    (hnew : ts.get? t.id = none) (hfresh : log.get? e.id = none) (haction : e.action = .create)
    (htable : e.tableName = "transactions") (hrecord : e.recordId = some t.id)
    (hamount : Fixed.store 19 4 x = some t.amount.1)
    (hdata : e.newData = some [("type", .text t.type.label), ("amount", .ofNumeric (some x)),
      ("source", .ofUuid t.sourceAccountId), ("dest", .ofUuid t.destAccountId),
      ("idempotency_key", .ofText t.idempotencyKey)]) :
    TransactionsTold ts₀ (ts.put t) (log.put e) := by
  have hold : ∀ t' ∈ ts, t'.id ≠ t.id := Table.get?_eq_none_iff.1 hnew
  have huntold : ∀ e ∈ log, e.tableName = "transactions" → e.recordId ≠ some t.id := by
    intro e he htable hid
    obtain ⟨t', ht', hrecord⟩ := h.known e he htable
    exact hold t' ht' (Option.some.inj (hrecord.symm.trans hid))
  refine ⟨?_, ?_, ?_⟩
  · intro e' he' htable'
    rcases (mem_put_log hfresh).1 he' with he' | rfl
    · obtain ⟨t', ht', hrecord⟩ := h.known e' he' htable'
      exact ⟨t', Table.mem_put_iff.2 (Or.inr ⟨ht', hold t' ht'⟩), hrecord⟩
    · exact ⟨t, Table.mem_put_self _ _, hrecord⟩
  · exact fun t' ht' => Table.mem_put_iff.2 (Or.inr ⟨h.stay t' ht', hold t' (h.stay t' ht')⟩)
  · intro t' ht'
    rw [creations_put hfresh]
    rcases Table.mem_put_iff.1 ht' with rfl | ⟨ht', hne⟩
    · refine Or.inr ⟨e, x, ?_, hamount, hdata⟩
      rw [creations_eq_nil huntold, if_pos ⟨haction, htable, hrecord⟩, List.nil_append]
    · have hother : e.recordId ≠ some t'.id := by
        rw [hrecord]
        exact fun hc => hne (Option.some.inj hc).symm
      rw [if_neg fun hc => hother hc.2.2, List.append_nil]
      exact h.made t' ht'

end TransactionsTold

/-! ## The hashes do not count -/

section

variable {as₀ as : Table Account.id} {ts₀ ts : Table Transaction.id} {log : Table AuditEntry.id}

theorem mem_unchainedLog {e : AuditEntry} :
    e ∈ unchainedLog log ↔ ∃ e' ∈ log, e'.unchained = e := by
  rw [Table.mem_def, rows_unchainedLog, List.mem_map]
  rfl

theorem balanceTrail_unchained (id : Uuid) :
    balanceTrail id (unchainedLog log) = balanceTrail id log := by
  rw [balanceTrail, rows_unchainedLog, List.filterMap_map]
  rfl

theorem creations_unchained (tableName : String) (id : Uuid) :
    creations tableName id (unchainedLog log) =
      (creations tableName id log).map AuditEntry.unchained := by
  rw [creations, rows_unchainedLog, List.filter_map]
  rfl

/-- A row that is alone without its hashes is alone. -/
theorem creations_eq_singleton_iff {tableName : String} {id : Uuid} {P : AuditEntry → Prop}
    (hP : ∀ e, P e.unchained ↔ P e) :
    (∃ e, creations tableName id (unchainedLog log) = [e] ∧ P e) ↔
      ∃ e, creations tableName id log = [e] ∧ P e := by
  rw [creations_unchained]
  constructor
  · rintro ⟨e, hrow, hdata⟩
    obtain ⟨e', hrow', rfl⟩ := List.map_eq_singleton_iff.1 hrow
    exact ⟨e', hrow', (hP e').1 hdata⟩
  · rintro ⟨e, hrow, hdata⟩
    exact ⟨e.unchained, by rw [hrow]; rfl, (hP e).2 hdata⟩

theorem accountsTold_unchained :
    AccountsTold as₀ as (unchainedLog log) ↔ AccountsTold as₀ as log := by
  have hopened : ∀ a : Account, (∃ e, creations "accounts" a.id (unchainedLog log) = [e] ∧
        e.newData = some [("name", .text a.name.1), ("type", .text a.type.label),
          ("currency", .text a.currency.1)]) ↔
      ∃ e, creations "accounts" a.id log = [e] ∧
        e.newData = some [("name", .text a.name.1), ("type", .text a.type.label),
          ("currency", .text a.currency.1)] :=
    fun a => creations_eq_singleton_iff fun _ => Iff.rfl
  constructor
  · intro h
    refine ⟨fun e he => h.known e.unchained (mem_unchainedLog.2 ⟨e, he, rfl⟩), h.stay, ?_, ?_⟩
    · intro a ha
      rw [← balanceTrail_unchained]
      exact h.leads a ha
    · exact fun a ha => (h.opened a ha).imp (fun h => h) (hopened a).1
  · intro h
    refine ⟨?_, h.stay, ?_, fun a ha => (h.opened a ha).imp (fun h => h) (hopened a).2⟩
    · intro e he
      obtain ⟨e', he', rfl⟩ := mem_unchainedLog.1 he
      exact h.known e' he'
    · intro a ha
      rw [balanceTrail_unchained]
      exact h.leads a ha

theorem transactionsTold_unchained :
    TransactionsTold ts₀ ts (unchainedLog log) ↔ TransactionsTold ts₀ ts log := by
  have hmade : ∀ t : Transaction, (∃ e x, creations "transactions" t.id (unchainedLog log) = [e] ∧
        Fixed.store 19 4 x = some t.amount.1 ∧
        e.newData = some [("type", .text t.type.label), ("amount", .ofNumeric (some x)),
          ("source", .ofUuid t.sourceAccountId), ("dest", .ofUuid t.destAccountId),
          ("idempotency_key", .ofText t.idempotencyKey)]) ↔
      ∃ e x, creations "transactions" t.id log = [e] ∧ Fixed.store 19 4 x = some t.amount.1 ∧
        e.newData = some [("type", .text t.type.label), ("amount", .ofNumeric (some x)),
          ("source", .ofUuid t.sourceAccountId), ("dest", .ofUuid t.destAccountId),
          ("idempotency_key", .ofText t.idempotencyKey)] := by
    intro t
    rw [exists_comm, exists_comm (α := AuditEntry)]
    exact exists_congr fun x => creations_eq_singleton_iff fun _ => Iff.rfl
  constructor
  · intro h
    exact ⟨fun e he => h.known e.unchained (mem_unchainedLog.2 ⟨e, he, rfl⟩), h.stay,
      fun t ht => (h.made t ht).imp (fun h => h) (hmade t).1⟩
  · intro h
    refine ⟨?_, h.stay, fun t ht => (h.made t ht).imp (fun h => h) (hmade t).2⟩
    intro e he
    obtain ⟨e', he', rfl⟩ := mem_unchainedLog.1 he
    exact h.known e' he'

end

/-! ## The functions -/

section

variable {ctx : Context} {db db' : Db} {as₀ : Table Account.id} {ts₀ ts : Table Transaction.id}

theorem audit_of_atOnce {id : Uuid} {action : AuditAction} {tableName : String}
    {recordId : Option Uuid} {oldData newData : Option JsonObject} {u : Unit}
    (h : AtOnce.writeAuditLog ctx id action tableName recordId oldData newData db = some (u, db')) :
    ∃ e, db' = db.apply (.auditEntry e) ∧ db.auditLog.get? e.id = none ∧ e.action = action ∧
      e.tableName = tableName ∧ e.recordId = recordId ∧ e.oldData = oldData ∧
      e.newData = newData := by
  simp only [AtOnce.writeAuditLog, Option.bind_eq_bind, Option.bind_eq_some_iff] at h
  obtain ⟨uid, -, _, hguard, h⟩ := h
  cases h
  exact ⟨_, rfl, Table.contains_eq_false_iff.1 (of_guard hguard), rfl, rfl, rfl, rfl, rfl⟩

/-- **A new balance** is told. -/
theorem told_of_move {site : ℕ} {id : Option Uuid} {f : Numeric → Numeric} {balance : Money}
    (h : AtOnce.updateBalance ctx site id f db = some (balance, db'))
    (haccounts : AccountsTold as₀ db.accounts db.auditLog)
    (htransactions : TransactionsTold ts₀ ts db.auditLog) :
    AccountsTold as₀ db'.accounts db'.auditLog ∧ TransactionsTold ts₀ ts db'.auditLog := by
  obtain ⟨⟨old, next⟩, _, hnext, h⟩ := bind_eq_some h
  simp only [AtOnce.nextBalance, Option.bind_eq_bind, Option.bind_eq_some_iff] at hnext
  obtain ⟨_, hrow, _, -, hnext⟩ := hnext
  cases hnext
  obtain ⟨i, -, hget⟩ := Option.bind_eq_some_iff.1 hrow
  obtain rfl := Table.key_of_get? hget
  obtain ⟨_, db₁, hvalidate, h⟩ := bind_eq_some h
  obtain ⟨_, _, hpassed, haudit⟩ := bind_eq_some hvalidate
  obtain ⟨_, -, hpassed⟩ := Option.bind_eq_some_iff.1 hpassed
  cases hpassed
  obtain ⟨_, db₂, hstored, h⟩ := bind_eq_some h
  cases h
  simp only [AtOnce.storeBalance, Option.bind_eq_bind, Option.bind_eq_some_iff] at hstored
  obtain ⟨checked, hchecked, hstored⟩ := hstored
  cases hstored
  obtain rfl : next = checked.1 := check_ok.1 (ok_of_toOption hchecked)
  split at haudit
  · rename_i hmoves
    obtain ⟨e, rfl, hfresh, haction, htable, hrecord, hold, hnew⟩ := audit_of_atOnce haudit
    have hother : e.tableName ≠ "transactions" := by
      rw [htable]
      decide
    exact ⟨haccounts.moved hget rfl rfl rfl rfl hmoves hfresh haction htable hrecord hold hnew,
      htransactions.other hfresh hother⟩
  · rename_i hstays
    cases haudit
    exact ⟨haccounts.unmoved hget rfl rfl rfl rfl (not_ne_iff.1 hstays), htransactions⟩

theorem told_of_post {site : ℕ} {args : TransactionArgs} {transactionId : Uuid}
    {accountId : Option Uuid} {entryType : EntryType} {amount : Numeric} {u : Unit}
    (h : AtOnce.postEntry ctx site args transactionId accountId entryType amount db = some (u, db'))
    (haccounts : AccountsTold as₀ db.accounts db.auditLog)
    (htransactions : TransactionsTold ts₀ ts db.auditLog) :
    (AccountsTold as₀ db'.accounts db'.auditLog ∧ TransactionsTold ts₀ ts db'.auditLog) ∧
      db'.transactions = db.transactions := by
  obtain ⟨_, _, _, -, hsame⟩ := posting_of_atOnce h
  obtain ⟨balance, between, hmove, hrecord⟩ := bind_eq_some h
  have htold := told_of_move hmove haccounts htransactions
  simp only [AtOnce.insertLedgerEntry, Option.bind_eq_bind, Option.bind_eq_some_iff] at hrecord
  obtain ⟨_, -, _, -, _, -, hrecord⟩ := hrecord
  cases hrecord
  exact ⟨htold, hsame.transactions⟩

/-- **A transfer** is told. -/
theorem told_of_transfer {args : TransactionArgs} {t : Transaction}
    (h : AtOnce.processTransaction ctx args db = some (t, db'))
    (haccounts : AccountsTold as₀ db.accounts db.auditLog)
    (htransactions : TransactionsTold ts₀ db.transactions db.auditLog) :
    AccountsTold as₀ db'.accounts db'.auditLog ∧
      TransactionsTold ts₀ db'.transactions db'.auditLog := by
  rw [AtOnce.processTransaction] at h
  split at h
  · cases h
    exact ⟨haccounts, htransactions⟩
  obtain ⟨_, db₀, hcheck, hpost⟩ := bind_eq_some h
  clear h
  obtain ⟨rfl, -⟩ := covered_of_atOnce hcheck
  obtain ⟨t', db₁, hinsert, h⟩ := bind_eq_some hpost
  obtain ⟨hrow, hfresh, -, -, rfl⟩ := inserted_of_atOnce hinsert
  obtain ⟨amount, _, hlift, h⟩ := bind_eq_some h
  obtain ⟨_, hamount, hlift⟩ := Option.bind_eq_some_iff.1 hlift
  cases hlift
  obtain ⟨_, db₂, hdebit, h⟩ := bind_eq_some h
  obtain ⟨_, db₃, hcredit, h⟩ := bind_eq_some h
  obtain ⟨_, db₄, haudit, h⟩ := bind_eq_some h
  cases h
  -- until its own row is written, the transaction is not told
  obtain ⟨htold₂, hkept₂⟩ := told_of_post hdebit haccounts htransactions
  obtain ⟨htold₃, hkept₃⟩ : (AccountsTold as₀ db₃.accounts db₃.auditLog ∧
      TransactionsTold ts₀ db₀.transactions db₃.auditLog) ∧
      db₃.transactions = db₂.transactions := by
    split at hcredit
    · exact told_of_post hcredit htold₂.1 htold₂.2
    · cases hcredit
      exact ⟨htold₂, rfl⟩
  obtain ⟨e, rfl, hunused, haction, htable, hrecord, -, hdata⟩ := audit_of_atOnce haudit
  have hother : e.tableName ≠ "accounts" := by
    rw [htable]
    decide
  have hwritten : (db₃.apply (.auditEntry e)).transactions = db₀.transactions.put t :=
    hkept₃.trans hkept₂
  obtain ⟨x, hx, hstore⟩ := hrow.amount
  refine ⟨htold₃.1.other hunused hother, ?_⟩
  rw [hwritten]
  refine htold₃.2.insertion hfresh hunused haction htable hrecord hstore ?_
  rw [hdata, hrow.type, hx, hrow.sourceAccountId, hrow.destAccountId, hrow.idempotencyKey]
  rfl

/-- **An opening** is told. -/
theorem told_of_opening {args : AccountArgs} {a : Account}
    (h : AtOnce.createAccount ctx args db = some (a, db'))
    (haccounts : AccountsTold as₀ db.accounts db.auditLog)
    (htransactions : TransactionsTold ts₀ db.transactions db.auditLog) :
    AccountsTold as₀ db'.accounts db'.auditLog ∧
      TransactionsTold ts₀ db'.transactions db'.auditLog := by
  have hopened := opening_of_atOnce h
  obtain ⟨a', db₁, hinsert, h⟩ := bind_eq_some h
  simp only [AtOnce.insertAccount, Option.bind_eq_bind, Option.bind_eq_some_iff] at hinsert
  obtain ⟨_, -, _, -, _, -, _, -, hinsert⟩ := hinsert
  cases hinsert
  obtain ⟨_, db₂, haudit, h⟩ := bind_eq_some h
  cases h
  obtain ⟨e, rfl, hunused, haction, htable, hrecord, -, hdata⟩ := audit_of_atOnce haudit
  have hother : e.tableName ≠ "transactions" := by
    rw [htable]
    decide
  have hrow := hopened.row
  refine ⟨haccounts.opening hopened.fresh hrow.balance hunused haction htable hrecord ?_,
    htransactions.other hunused hother⟩
  rw [hdata, hrow.name, hrow.type, hrow.currency]
  rfl

theorem told_of_commit {c : RpcCall} {a : RpcAnswer}
    (h : c.atOnce db.books = some (a, db'.books))
    (htold : AccountsTold as₀ db.accounts db.auditLog ∧
      TransactionsTold ts₀ db.transactions db.auditLog) :
    AccountsTold as₀ db'.accounts db'.auditLog ∧
      TransactionsTold ts₀ db'.transactions db'.auditLog := by
  have haccounts : AccountsTold as₀ db.books.accounts db.books.auditLog :=
    accountsTold_unchained.2 htold.1
  have htransactions : TransactionsTold ts₀ db.books.transactions db.books.auditLog :=
    transactionsTold_unchained.2 htold.2
  have hbooks : AccountsTold as₀ db'.books.accounts db'.books.auditLog ∧
      TransactionsTold ts₀ db'.books.transactions db'.books.auditLog := by
    cases c with
    | createAccount ctx args =>
      obtain ⟨_, _, hopen, h⟩ := bind_eq_some h
      cases h
      exact told_of_opening hopen haccounts htransactions
    | processTransaction ctx args =>
      obtain ⟨_, _, hprocess, h⟩ := bind_eq_some h
      cases h
      exact told_of_transfer hprocess haccounts htransactions
  exact ⟨accountsTold_unchained.1 hbooks.1, transactionsTold_unchained.1 hbooks.2⟩

end

/-! ## Runs -/

/-- At the start nothing has been told. -/
theorem told_of_untold {db : Db}
    (h : ∀ e ∈ db.auditLog, e.tableName ≠ "accounts" ∧ e.tableName ≠ "transactions") :
    AccountsTold db.accounts db.accounts db.auditLog ∧
      TransactionsTold db.transactions db.transactions db.auditLog := by
  refine ⟨⟨fun e he htable => absurd htable (h e he).1, fun a ha => ⟨a, ha, rfl⟩, ?_,
    fun a ha => Or.inl ⟨a, ha, rfl⟩⟩,
    ⟨fun e he htable => absurd htable (h e he).2, fun t ht => ht, fun t ht => Or.inl ht⟩⟩
  intro a ha
  have htrail : balanceTrail a.id db.auditLog = [] :=
    List.filterMap_eq_nil_iff.2 fun e he => if_neg fun hc => (h e he).1 hc.2.1
  rw [htrail, startBalance, Table.get?_of_mem ha]
  exact .nil _

/-- **The audit log tells the books**: from a log on that says nothing of the accounts and the
transactions, in any interleaving, the changes it tells of an account lead from its first balance to
its last one, and every account and every transaction that is new is told exactly once. -/
theorem auditLog_tells {ι : Type} [DecidableEq ι] {calls : ι → RpcCall} {db : Db}
    {σ : State ι Db Write LockKey PgError RpcAnswer}
    {steps : List (State ι Db Write LockKey PgError RpcAnswer × ι ×
      State ι Db Write LockKey PgError RpcAnswer)}
    (hstart : ∀ e ∈ db.auditLog, e.tableName ≠ "accounts" ∧ e.tableName ≠ "transactions")
    (h : Run (Step Db.apply) Always (RpcCall.answerAll calls db) steps σ) :
    AccountsTold db.accounts σ.committed.accounts σ.committed.auditLog ∧
      TransactionsTold db.transactions σ.committed.transactions σ.committed.auditLog :=
  Discipline.keeps (R := booking) (G := fun _ _ => True) trivial (fun i => (calls i).commitsAs db) h
    (told_of_untold hstart) (fun _ _ _ _ htold _ hcommit => told_of_commit hcommit htold)
    fun _ _ _ => trivial

/-- The theorem at work: two accounts are opened and twice ten dollars are moved; all of it is
told. -/
theorem auditLog_tells_openAndMove :
    ∃ steps σ, Run (Step Db.apply) Always
        (RpcCall.answerAll RpcCall.openAndMove Db.starter.beforeAccounts) steps σ ∧
      (∀ a ∈ σ.committed.accounts, (∃ e, creations "accounts" a.id σ.committed.auditLog = [e]) ∧
        Leads (balanceData Fixed.zero) (balanceTrail a.id σ.committed.auditLog)
          (balanceData a.balance.1) ∧ (balanceTrail a.id σ.committed.auditLog).length = 2) ∧
      (∀ t ∈ σ.committed.transactions,
        ∃ e, creations "transactions" t.id σ.committed.auditLog = [e]) ∧
      σ.committed.accounts.rows.length = 2 ∧ σ.committed.transactions.rows.length = 2 := by
  have htwice : (serial Db.apply (fun n => (RpcCall.openAndMove n).answering) [1, 0, 3, 2]
      Db.starter.beforeAccounts).any (fun db' => db'.accounts.rows.length == 2 &&
        db'.transactions.rows.length == 2 &&
        db'.accounts.rows.all fun a => (balanceTrail a.id db'.auditLog).length == 2) = true := by
    decide +kernel
  obtain ⟨db', hserial, htwo⟩ := (Option.any_eq_true _ _).1 htwice
  obtain ⟨σ, hreach, rfl⟩ := reach_of_serial (by decide) hserial
  obtain ⟨steps, hrun⟩ := hreach.exists_run
  simp only [Bool.and_eq_true, beq_iff_eq, List.all_eq_true] at htwo
  obtain ⟨haccounts, htransactions⟩ := auditLog_tells (by decide +kernel) hrun
  refine ⟨steps, σ, hrun, fun a ha => ⟨?_, ?_, htwo.2 a ha⟩, fun t ht => ?_, htwo.1⟩
  · rcases haccounts.opened a ha with ⟨a₀, ha₀, -⟩ | ⟨e, hrow, -⟩
    · cases ha₀
    · exact ⟨e, hrow⟩
  · exact haccounts.leads a ha
  · rcases htransactions.made t ht with hold | ⟨e, _, hrow, -⟩
    · cases hold
    · exact ⟨e, hrow⟩

end EnterpriseSystem
