import EnterpriseSystem.Base.Bookkeeping
import EnterpriseSystem.Base.Run
import EnterpriseSystem.Database.Transfer

/-!
# The ledger and the balances it backs

`accounts.balance` is a materialised sum of the ledger, and every transaction is
supposed to be balanced within it.  This file proves when both are so, over runs
of `create_account` and `process_transaction` calls from a database without
accounts.

* `Db.journal` — the ledger as a journal of signed amounts, in units of the
  fourth decimal.
* `Reconciled` — the invariant of the balances.  One posting keeps it when the
  balance moves by exactly the stored amount (`Reconciled.post`), which
  `IsPosting.units` reduces to a fact about rounding: the amount and the balance
  are rounded separately, and the two agree unless the amount lies half way
  between two units and the balance is on the wrong side of zero
  (`RoundsConsistently`).
* `Doubled` — the invariant of the entries: one debit and one credit, each of
  the amount of the transaction.
-/

namespace EnterpriseSystem

open Relational Bookkeeping

/-! ## Sums over the ledger -/

/-- `SUM(amount)` over the debits or the credits among some entries. -/
def sumAmounts (es : List LedgerEntry) (k : EntryType) : Numeric :=
  Numeric.sum ((es.filter fun e => decide (e.entryType = k)).map fun e => e.amount.1.toNumeric)

/-- The entries of an account, in the order they were written. -/
def Db.entriesOf (db : Db) (accountId : Uuid) : List LedgerEntry :=
  db.ledgerEntries.rows.filter fun e => decide (e.accountId = accountId)

/-- The entries of a transaction. -/
def Db.entriesIn (db : Db) (transactionId : Uuid) : List LedgerEntry :=
  db.ledgerEntries.rows.filter fun e => decide (e.transactionId = transactionId)

/-- The balance of an account is the sum of its credits minus the sum of its
debits, and the last entry written for it says so. -/
def AgreesWithLedger (db : Db) (a : Account) : Prop :=
  a.balance.1.toNumeric =
      (sumAmounts (db.entriesOf a.id) .credit).sub (sumAmounts (db.entriesOf a.id) .debit) ∧
    ∀ e, (db.entriesOf a.id).getLast? = some e → e.balanceAfter = a.balance.1

/-- The debits and the credits of a transaction each sum to its amount. -/
def IsBalanced (db : Db) (t : Transaction) : Prop :=
  sumAmounts (db.entriesIn t.id) .debit = t.amount.1.toNumeric ∧
    sumAmounts (db.entriesIn t.id) .credit = t.amount.1.toNumeric

/-- All entries together sum to zero. -/
def SumsToZero (db : Db) : Prop :=
  (sumAmounts db.ledgerEntries.rows .credit).sub (sumAmounts db.ledgerEntries.rows .debit) =
    .finite 0

/-- `1` for a credit and `-1` for a debit. -/
def EntryType.sign : EntryType → ℤ
  | debit => -1
  | credit => 1

/-- What an entry adds to the balance of its account, in units of the fourth
decimal. -/
def LedgerEntry.signedUnits (e : LedgerEntry) : ℤ := e.entryType.sign * e.amount.1.toUnits

/-- The ledger as a journal. -/
def Db.journal (db : Db) : List (Entry Uuid Uuid ℤ) :=
  db.ledgerEntries.rows.map fun e => ⟨e.accountId, e.transactionId, e.signedUnits⟩

/-- The amount of an entry is a number. -/
def LedgerEntry.IsFinite (e : LedgerEntry) : Prop := e.amount.1 ≠ .nan

theorem toNumeric_of_ne_nan {m : Money} (h : m ≠ .nan) :
    m.toNumeric = .finite (m.toUnits / 10 ^ 4) := by
  cases m with
  | nan => exact absurd rfl h
  | units n hn => rfl

theorem sumAmounts_eq {es : List LedgerEntry} (h : ∀ e ∈ es, e.IsFinite) (k : EntryType) :
    sumAmounts es k = .finite
      (((es.filter fun e => decide (e.entryType = k)).map fun e => e.amount.1.toUnits).sum /
        10 ^ 4) := by
  have hmap : (es.filter fun e => decide (e.entryType = k)).map (fun e => e.amount.1.toNumeric) =
      (es.filter fun e => decide (e.entryType = k)).map
        fun e => Numeric.finite ((e.amount.1.toUnits : ℚ) / 10 ^ 4) :=
    List.map_congr_left fun e he => toNumeric_of_ne_nan (h e (List.mem_filter.1 he).1)
  rw [sumAmounts, hmap, Numeric.sum_map_finite]
  generalize es.filter (fun e => decide (e.entryType = k)) = l
  congr 1
  induction l with
  | nil => simp
  | cons e l ih =>
    simp only [List.map_cons, List.sum_cons, ih]
    push_cast
    ring

theorem sum_signedUnits (es : List LedgerEntry) :
    (es.map LedgerEntry.signedUnits).sum =
      ((es.filter fun e => decide (e.entryType = .credit)).map fun e => e.amount.1.toUnits).sum -
      ((es.filter fun e => decide (e.entryType = .debit)).map fun e => e.amount.1.toUnits).sum := by
  induction es with
  | nil => rfl
  | cons e es ih =>
    rw [List.map_cons, List.sum_cons, ih]
    cases hk : e.entryType <;> simp [LedgerEntry.signedUnits, EntryType.sign, hk] <;> ring

/-- Credits minus debits are the signed units. -/
theorem sub_sumAmounts {es : List LedgerEntry} (h : ∀ e ∈ es, e.IsFinite) :
    (sumAmounts es .credit).sub (sumAmounts es .debit) =
      .finite ((es.map LedgerEntry.signedUnits).sum / 10 ^ 4) := by
  rw [sumAmounts_eq h, sumAmounts_eq h, Numeric.sub_finite, sum_signedUnits]
  push_cast
  congr 1
  ring

theorem balanceOf_journal (db : Db) (a : Uuid) :
    balanceOf a db.journal = ((db.entriesOf a).map LedgerEntry.signedUnits).sum := by
  rw [balanceOf, Db.journal, List.filter_map, List.map_map]
  rfl

theorem total_journal (db : Db) :
    total db.journal = (db.ledgerEntries.rows.map LedgerEntry.signedUnits).sum := by
  rw [total, Db.journal, List.map_map]
  rfl

theorem netOf_journal (db : Db) (t : Uuid) :
    netOf t db.journal = ((db.entriesIn t).map LedgerEntry.signedUnits).sum := by
  rw [netOf, Db.journal, List.filter_map, List.map_map]
  rfl

/-! ## One posting -/

namespace IsPosting

variable {args : TransactionArgs} {transactionId : Uuid} {accountId : Option Uuid}
  {entryType : EntryType} {amount : Numeric} {db : Db} {old new : Account} {e : LedgerEntry}

theorem entry_account (h : IsPosting args transactionId accountId entryType amount db old new e) :
    e.accountId = old.id := by
  obtain ⟨i, hi, hrow⟩ := Option.bind_eq_some_iff.1 h.row
  have haccount := h.entry.accountId
  rw [hi] at haccount
  rw [← Option.some.inj haccount]
  exact (Table.key_of_get? hrow).symm

theorem journal (h : IsPosting args transactionId accountId entryType amount db old new e) :
    (db.post new e).journal =
      db.journal ++ [⟨e.accountId, e.transactionId, e.signedUnits⟩] := by
  rw [Db.journal, h.rows, List.map_append]
  rfl

theorem entriesOf (h : IsPosting args transactionId accountId entryType amount db old new e)
    (a : Uuid) :
    (db.post new e).entriesOf a =
      if e.accountId = a then db.entriesOf a ++ [e] else db.entriesOf a := by
  rw [Db.entriesOf, h.rows, List.filter_append]
  by_cases hea : e.accountId = a <;> simp [hea, Db.entriesOf]

theorem entriesIn (h : IsPosting args transactionId accountId entryType amount db old new e)
    (t : Uuid) :
    (db.post new e).entriesIn t =
      if e.transactionId = t then db.entriesIn t ++ [e] else db.entriesIn t := by
  rw [Db.entriesIn, h.rows, List.filter_append]
  by_cases het : e.transactionId = t <;> simp [het, Db.entriesIn]

/-- **A posting in units.**  The amount is a positive number; the entry rounds
it, and the balance is rounded after it has moved. -/
theorem units (h : IsPosting args transactionId accountId entryType amount db old new e)
    (hamount : args.amount = some amount) :
    ∃ q : ℚ, amount = .finite q ∧ 0 < q ∧ e.IsFinite ∧
      e.amount.1.toUnits = roundHalfAway (q * 10 ^ 4) ∧
      new.balance.1.toUnits =
        roundHalfAway (old.balance.1.toUnits + entryType.sign * (q * 10 ^ 4)) := by
  obtain ⟨n, hn, hold⟩ := exists_units_of_inBalanceRange old.balance.2
  obtain ⟨n', hn', hnew⟩ := exists_units_of_inBalanceRange new.balance.2
  have hstore := h.balance
  rw [hold, hnew, Fixed.toNumeric_units] at hstore
  -- a balance that is a number forces the amount to be one
  have hfinite : ∃ q, amount = .finite q := by
    rcases Fixed.store_cases hstore with ⟨-, hnan⟩ | ⟨p, _, hp, -⟩
    · cases hnan
    · cases amount with
      | finite q => exact ⟨q, rfl⟩
      | _ => cases entryType <;> cases hp
  obtain ⟨q, rfl⟩ := hfinite
  obtain ⟨x, hx, hentry⟩ := h.entry.amount
  rw [hamount] at hx
  cases hx
  have hunits : ∃ hm, e.amount.1 = .units (roundHalfAway (q * 10 ^ 4)) hm := by
    rcases Fixed.store_cases hentry with ⟨hnan, -⟩ | ⟨p, hm, hp, heq⟩
    · cases hnan
    · cases hp
      exact ⟨hm, heq⟩
  obtain ⟨hm, hunits⟩ := hunits
  have hpos := e.amount.2
  rw [IsPositive, hunits, Fixed.toNumeric_units, Numeric.lt_finite, decide_eq_true_eq] at hpos
  have hround : 0 < roundHalfAway (q * 10 ^ 4) := by
    have : (0 : ℚ) < roundHalfAway (q * 10 ^ 4) := (div_pos_iff_of_pos_right (by norm_num)).1 hpos
    exact_mod_cast this
  refine ⟨q, rfl, ?_, ?_, by rw [hunits, Fixed.toUnits_units], ?_⟩
  · have := pos_of_roundHalfAway_pos hround
    linarith
  · rw [LedgerEntry.IsFinite, hunits]
    exact fun hc => nomatch hc
  · have hmove : entryType.move (.finite (n / 10 ^ 4)) (.finite q) =
        .finite (n / 10 ^ 4 + entryType.sign * q) := by
      cases entryType with
      | debit => simp [EntryType.move, EntryType.sign, sub_eq_add_neg]
      | credit => simp [EntryType.move, EntryType.sign]
    rw [hmove] at hstore
    rcases Fixed.store_cases hstore with ⟨hnan, -⟩ | ⟨p, _, hp, heq⟩
    · cases hnan
    · cases hp
      injection heq with heq
      rw [hold, hnew, Fixed.toUnits_units, Fixed.toUnits_units, heq]
      congr 1
      ring

end IsPosting

/-! ## Rounding -/

/-- An account on which a debit, or a credit, of `q` is rounded as the entry is:
`q` is not half way between two units, or the balance is on the side of zero
where that makes no difference. -/
def MovesExactly : EntryType → Account → ℚ → Prop
  | .debit, a, q => IsTie (q * 10 ^ 4) → a.balance.1.toNumeric.lt (.finite q) = true
  | .credit, a, q => IsTie (q * 10 ^ 4) →
      Numeric.lt (.finite 0) (a.balance.1.toNumeric.add (.finite q)) = true

/-- **When a posting moves the balance by the stored amount**: exactly then. -/
theorem IsPosting.exact_iff {args : TransactionArgs} {transactionId : Uuid}
    {accountId : Option Uuid} {k : EntryType} {q : ℚ} {db : Db} {old new : Account}
    {e : LedgerEntry} (h : IsPosting args transactionId accountId k (.finite q) db old new e)
    (hamount : args.amount = some (.finite q)) :
    new.balance.1.toUnits = old.balance.1.toUnits + e.signedUnits ↔ MovesExactly k old q := by
  obtain ⟨_, hq, hpos, -, hentry, hnew⟩ := h.units hamount
  cases hq
  obtain ⟨n, hn, hold⟩ := exists_units_of_inBalanceRange old.balance.2
  have hpos' : (0 : ℚ) < q * 10 ^ 4 := by positivity
  rw [hnew, LedgerEntry.signedUnits, hentry, h.entry.entryType, hold, Fixed.toUnits_units]
  cases k with
  | debit =>
    rw [MovesExactly, hold, Fixed.toNumeric_units]
    have hsign : ((n : ℚ) + (EntryType.debit.sign : ℤ) * (q * 10 ^ 4)) = n - q * 10 ^ 4 := by
      simp [EntryType.sign, sub_eq_add_neg]
    rw [hsign, Numeric.lt_finite, decide_eq_true_eq, div_lt_iff₀ (by norm_num)]
    by_cases htie : IsTie (q * 10 ^ 4)
    · rw [← roundHalfAway_int_sub_tie htie hpos']
      simp [htie, EntryType.sign, sub_eq_add_neg]
    · rw [roundHalfAway_int_sub htie]
      simp [htie, EntryType.sign, sub_eq_add_neg]
  | credit =>
    rw [MovesExactly, hold, Fixed.toNumeric_units]
    have hsign : ((n : ℚ) + (EntryType.credit.sign : ℤ) * (q * 10 ^ 4)) = n + q * 10 ^ 4 := by
      simp [EntryType.sign]
    have hscale : 0 < (n : ℚ) / 10 ^ 4 + q ↔ 0 < (n : ℚ) + q * 10 ^ 4 := by
      constructor <;> intro <;> linarith
    rw [hsign, Numeric.add_finite, Numeric.lt_finite, decide_eq_true_eq, hscale]
    by_cases htie : IsTie (q * 10 ^ 4)
    · rw [← roundHalfAway_int_add_tie htie hpos']
      simp [htie, EntryType.sign]
    · simp [htie, roundHalfAway_int_add htie, EntryType.sign]

/-! ## The balances -/

/-- The invariant of the balances, in units. -/
structure Reconciled (db : Db) : Prop where
  finite : ∀ e ∈ db.ledgerEntries, e.IsFinite
  posted : ∀ e ∈ db.ledgerEntries, ∃ a ∈ db.accounts, a.id = e.accountId
  balance : ∀ a ∈ db.accounts, a.balance.1.toUnits = balanceOf a.id db.journal
  last : ∀ a ∈ db.accounts, ∀ e, (db.entriesOf a.id).getLast? = some e →
    e.balanceAfter = a.balance.1

namespace Reconciled

variable {db db' : Db}

theorem of_eq (h : Reconciled db) (haccounts : db'.accounts = db.accounts)
    (hentries : db'.ledgerEntries = db.ledgerEntries) : Reconciled db' where
  finite := hentries ▸ h.finite
  posted := hentries ▸ haccounts ▸ h.posted
  balance := by
    rw [haccounts, Db.journal, hentries]
    exact h.balance
  last := by
    simp only [haccounts, Db.entriesOf, hentries]
    exact h.last

/-- **A new account** without money in it. -/
theorem create (h : Reconciled db) {a : Account} (hfresh : db.accounts.get? a.id = none)
    (hzero : a.balance.1 = Fixed.zero) : Reconciled (db.apply (.account a)) := by
  have hnone : ∀ b ∈ db.accounts, b.id ≠ a.id := Table.get?_eq_none_iff.1 hfresh
  have hunposted : ∀ e ∈ db.ledgerEntries, e.accountId ≠ a.id := by
    intro e he
    obtain ⟨b, hb, hid⟩ := h.posted e he
    rw [← hid]
    exact hnone b hb
  refine ⟨h.finite, ?_, ?_, ?_⟩
  · intro e he
    obtain ⟨b, hb, hid⟩ := h.posted e he
    exact ⟨b, Table.mem_put_iff.2 (Or.inr ⟨hb, hnone b hb⟩), hid⟩
  · intro b hb
    rcases Table.mem_put_iff.1 hb with rfl | ⟨hb, -⟩
    · rw [hzero, balanceOf_eq_zero]
      · rfl
      · intro e he
        obtain ⟨e', he', rfl⟩ := List.mem_map.1 he
        exact hunposted e' he'
    · exact h.balance b hb
  · intro b hb e he
    rcases Table.mem_put_iff.1 hb with rfl | ⟨hb, -⟩
    · obtain ⟨hmem, haccount⟩ := List.mem_filter.1 (List.mem_of_getLast? he)
      exact absurd (of_decide_eq_true haccount) (hunposted e hmem)
    · exact h.last b hb e he

/-- **One posting**, when the balance moves by the stored amount. -/
theorem post (h : Reconciled db) {args : TransactionArgs} {transactionId : Uuid}
    {accountId : Option Uuid} {entryType : EntryType} {amount : Numeric} {old new : Account}
    {e : LedgerEntry}
    (hp : IsPosting args transactionId accountId entryType amount db old new e)
    (hfinite : e.IsFinite)
    (hexact : new.balance.1.toUnits = old.balance.1.toUnits + e.signedUnits) :
    Reconciled (db.post new e) := by
  have hold : old ∈ db.accounts := Table.mem_of_get? hp.get?_old
  have hother : ∀ b : Account, b.id ≠ new.id → ¬ old.id = b.id :=
    fun b hne hc => hne (hc.symm.trans hp.new_id.symm)
  refine ⟨?_, ?_, ?_, ?_⟩
  · intro e' he'
    rcases hp.mem_entries.1 he' with he' | rfl
    · exact h.finite e' he'
    · exact hfinite
  · intro e' he'
    rcases hp.mem_entries.1 he' with he' | rfl
    · obtain ⟨b, hb, hid⟩ := h.posted e' he'
      by_cases hnew : b.id = new.id
      · exact ⟨new, hp.mem_accounts.2 (Or.inl rfl), hnew ▸ hid⟩
      · exact ⟨b, hp.mem_accounts.2 (Or.inr ⟨hb, hnew⟩), hid⟩
    · exact ⟨new, hp.mem_accounts.2 (Or.inl rfl), hp.new_id.trans hp.entry_account.symm⟩
  · intro b hb
    rw [hp.journal, balanceOf_concat, hp.entry_account]
    rcases hp.mem_accounts.1 hb with rfl | ⟨hb, hne⟩
    · rw [if_pos hp.new_id.symm, hexact, h.balance old hold, hp.new_id]
    · rw [if_neg (hother b hne), h.balance b hb]
  · intro b hb e' he'
    rw [hp.entriesOf, hp.entry_account] at he'
    rcases hp.mem_accounts.1 hb with rfl | ⟨hb, hne⟩
    · rw [if_pos hp.new_id.symm, List.getLast?_concat] at he'
      cases he'
      exact (Option.some.inj hp.entry.balanceAfter).symm
    · rw [if_neg (hother b hne)] at he'
      exact h.last b hb e' he'

/-- The invariant says what it should of every account. -/
theorem agrees (h : Reconciled db) {a : Account} (ha : a ∈ db.accounts) :
    AgreesWithLedger db a := by
  refine ⟨?_, h.last a ha⟩
  have hfinite : ∀ e ∈ db.entriesOf a.id, e.IsFinite :=
    fun e he => h.finite e (List.mem_filter.1 he).1
  rw [sub_sumAmounts hfinite, ← balanceOf_journal, ← h.balance a ha]
  obtain ⟨n, hn, hbalance⟩ := exists_units_of_inBalanceRange a.balance.2
  rw [hbalance]
  rfl

end Reconciled

/-- The condition under which a call keeps the balances and the ledger together:
an amount that lies half way between two units of the fourth decimal is debited
from a balance below it and credited to one that it lifts above zero. -/
def RoundsConsistently (db : Db) : RpcCall → Prop
  | .createAccount _ _ => True
  | .processTransaction _ args => ∀ q, args.amount = some (.finite q) → 0 < q →
      (∀ a, accountRow args.sourceAccount db = some a → MovesExactly .debit a q) ∧
      ∀ a, accountRow args.destAccount db = some a → MovesExactly .credit a q

/-- **One call** that rounds consistently keeps the invariant. -/
theorem Reconciled.step {db : Db} (h : Reconciled db) {c : RpcCall}
    (hc : RoundsConsistently db c) : Reconciled (c.step db) := by
  rcases c.step_cases db with hsame | ⟨ctx, args, a, rfl, -, ha⟩ |
    ⟨ctx, args, t, rfl, -, ht⟩
  · exact h.of_eq hsame.accounts hsame.ledgerEntries
  · exact (h.create ha.fresh ha.row.balance).of_eq ha.frame.accounts ha.frame.ledgerEntries
  · obtain ⟨amount, source, source', debit, hamount, hdebit, hrest⟩ := ht.postings
    obtain ⟨q, rfl, hq, hfinite, -, -⟩ := hdebit.units hamount
    obtain ⟨hsource, hdest⟩ := hc q hamount hq
    have htxn : Reconciled (db.apply (.transaction t)) := h.of_eq rfl rfl
    have hdebit' : IsPosting args t.id args.sourceAccount .debit (.finite q)
        (db.apply (.transaction t)) source source' debit := hdebit.congr rfl rfl
    have hfirst := htxn.post hdebit' hfinite
      ((hdebit'.exact_iff hamount).2 (hsource source hdebit.row))
    rcases hrest with ⟨-, hdb'⟩ | ⟨dest, dest', credit, hcredit, hdb'⟩
    · exact hfirst.of_eq hdb'.accounts hdb'.ledgerEntries
    · obtain ⟨_, -, -, hfinite', -, -⟩ := hcredit.units hamount
      have hrow := hcredit.row
      rw [ht.row.accountRow_dest hdebit.accountId_eq] at hrow
      exact (hfirst.post hcredit hfinite'
        ((hcredit.exact_iff hamount).2 (hdest dest hrow))).of_eq hdb'.accounts hdb'.ledgerEntries

theorem Reconciled.beforeAccounts (db : Db) : Reconciled db.beforeAccounts where
  finite := fun _ he => nomatch he
  posted := fun _ he => nomatch he
  balance := fun _ ha => nomatch ha
  last := fun _ ha => nomatch ha

/-- **The balances are what the ledger says**, in every state reached by calls
that round consistently. -/
theorem balance_agreesWithLedger {db₀ db : Db}
    (h : Reach (Deterministic RpcCall.step) RoundsConsistently db₀.beforeAccounts db) :
    ∀ a ∈ db.accounts, AgreesWithLedger db a := by
  have hinv : Reconciled db := by
    refine h.invariant (Reconciled.beforeAccounts db₀) ?_
    rintro s c s' hs hc rfl
    exact hs.step hc
  exact fun a ha => hinv.agrees ha

/-- The theorem at work: ten dollars from a credit account to a checking account. -/
theorem balance_agreesWithLedger_transfer :
    let db := (RpcCall.openings ++ [RpcCall.transfer 300 10 100 (some 200)]).foldl RpcCall.step
      Db.starter.beforeAccounts
    ∀ a ∈ db.accounts, AgreesWithLedger db a := by
  refine balance_agreesWithLedger (reach_foldl RpcCall.step ?_ _)
  have hround : ∀ s, RoundsConsistently s (.transfer 300 10 100 (some 200)) := by
    intro s q hq _
    cases hq
    have hnot : ¬ IsTie (10 * 10 ^ 4) := by
      have := not_isTie_intCast 100000
      norm_num at this ⊢
      exact this
    exact ⟨fun a _ htie => absurd htie hnot, fun a _ htie => absurd htie hnot⟩
  intro c hc s
  simp only [RpcCall.openings, List.cons_append, List.nil_append, List.mem_cons,
    List.not_mem_nil, or_false] at hc
  rcases hc with rfl | rfl | rfl
  · trivial
  · trivial
  · exact hround s

/-- **Half a unit back.**  After ten dollars have gone to a checking account,
`0.00005` are sent back.  The entry debits `0.0001`, but `9.99995` is rounded to
`10.0000`, and the account keeps all of its money. -/
theorem balance_disagrees_halfUnit :
    ¬ ∀ db₀ db, Reach (Deterministic RpcCall.step)
        (fun _ c => c.context.server.resolvesUnqualified = true) (Db.beforeAccounts db₀) db →
      ∀ a ∈ db.accounts, AgreesWithLedger db a := by
  intro h
  let calls := RpcCall.openings ++ [.transfer 300 10 100 (some 200),
    .transfer 400 (1 / 20000) 200 (some 100)]
  let db := calls.foldl RpcCall.step Db.starter.beforeAccounts
  have hresolves : ∀ c ∈ calls, c.context.server.resolvesUnqualified = true := by decide
  have hagrees := h Db.starter db (reach_foldl RpcCall.step (fun c hc _ => hresolves c hc) _)
  have hdisagrees : ((db.accounts.get? 200).any fun a => decide (a.balance.1.toNumeric ≠
      (sumAmounts (db.entriesOf a.id) .credit).sub (sumAmounts (db.entriesOf a.id) .debit))) =
        true := by
    decide +kernel
  obtain ⟨a, ha, hne⟩ := (Option.any_eq_true _ _).1 hdisagrees
  exact of_decide_eq_true hne (hagrees a (Table.mem_of_get? ha)).1

/-! ## The entries of a transaction -/

/-- The amounts of the debits, or of the credits, of a transaction. -/
def Db.legs (db : Db) (transactionId : Uuid) (k : EntryType) : List Amount :=
  ((db.entriesIn transactionId).filter fun e => decide (e.entryType = k)).map LedgerEntry.amount

/-- The invariant of the entries. -/
structure Doubled (db : Db) : Prop where
  finite : ∀ e ∈ db.ledgerEntries, e.IsFinite
  known : ∀ e ∈ db.ledgerEntries, ∃ t ∈ db.transactions, t.id = e.transactionId
  legs : ∀ t ∈ db.transactions, ∀ k, db.legs t.id k = [t.amount]

/-- The entry of a transfer has the amount of its row in `transactions`. -/
theorem IsPosting.amount_eq {ctx : Context} {args : TransactionArgs} {t : Transaction}
    {transactionId : Uuid} {accountId : Option Uuid} {k : EntryType} {amount : Numeric} {db : Db}
    {old new : Account} {e : LedgerEntry}
    (h : IsPosting args transactionId accountId k amount db old new e)
    (ht : IsNewTransaction ctx args t) : e.amount = t.amount := by
  obtain ⟨x, hx, hentry⟩ := h.entry.amount
  obtain ⟨y, hy, hrow⟩ := ht.amount
  rw [hx] at hy
  cases hy
  rw [hentry] at hrow
  exact Subtype.ext (Option.some.inj hrow)

theorem IsPosting.legs {args : TransactionArgs} {transactionId : Uuid} {accountId : Option Uuid}
    {k : EntryType} {amount : Numeric} {db : Db} {old new : Account} {e : LedgerEntry}
    (h : IsPosting args transactionId accountId k amount db old new e) (t : Uuid) (k' : EntryType) :
    (db.post new e).legs t k' =
      if transactionId = t ∧ k = k' then db.legs t k' ++ [e.amount] else db.legs t k' := by
  rw [Db.legs, h.entriesIn, h.entry.transactionId]
  by_cases ht : transactionId = t
  · by_cases hk : k = k' <;> simp [ht, hk, Db.legs, h.entry.entryType]
  · simp [ht, Db.legs]

namespace Doubled

variable {db db' : Db}

theorem of_eq (h : Doubled db) (htransactions : db'.transactions = db.transactions)
    (hentries : db'.ledgerEntries = db.ledgerEntries) : Doubled db' where
  finite := hentries ▸ h.finite
  known := hentries ▸ htransactions ▸ h.known
  legs := by
    simp only [htransactions, Db.legs, Db.entriesIn, hentries]
    exact h.legs

/-- **A transfer with a destination** adds one debit and one credit. -/
theorem transfer (h : Doubled db) {ctx : Context} {args : TransactionArgs} {t : Transaction}
    (ht : IsTransfer ctx args t db db') (hdest : args.destAccount ≠ none) : Doubled db' := by
  obtain ⟨amount, source, source', debit, hamount, hdebit, hrest⟩ := ht.postings
  obtain ⟨hnone, -⟩ | ⟨dest, dest', credit, hcredit, hdb'⟩ := hrest
  · exact absurd hnone hdest
  refine Doubled.of_eq ?_ hdb'.transactions hdb'.ledgerEntries
  have hdebit' : IsPosting args t.id args.sourceAccount .debit amount
      (db.apply (.transaction t)) source source' debit := hdebit.congr rfl rfl
  have hold : ∀ t' ∈ db.transactions, t'.id ≠ t.id := Table.get?_eq_none_iff.1 ht.fresh
  have hempty : db.entriesIn t.id = [] := by
    refine List.filter_eq_nil_iff.2 fun e he hc => ?_
    obtain ⟨t', ht', hid⟩ := h.known e he
    exact hold t' ht' (hid.trans (of_decide_eq_true hc))
  have hmem : ∀ e ∈ (((db.apply (.transaction t)).post source' debit).post
      dest' credit).ledgerEntries, e ∈ db.ledgerEntries ∨ e = debit ∨ e = credit := by
    intro e he
    rcases hcredit.mem_entries.1 he with he | he
    · rcases hdebit'.mem_entries.1 he with he | he
      · exact Or.inl he
      · exact Or.inr (Or.inl he)
    · exact Or.inr (Or.inr he)
  refine ⟨?_, ?_, ?_⟩
  · intro e he
    obtain ⟨_, _, _, hfinite, -⟩ := hdebit.units hamount
    obtain ⟨_, _, _, hfinite', -⟩ := hcredit.units hamount
    rcases hmem e he with he | rfl | rfl
    · exact h.finite e he
    · exact hfinite
    · exact hfinite'
  · intro e he
    rcases hmem e he with he | rfl | rfl
    · obtain ⟨t', ht', hid⟩ := h.known e he
      exact ⟨t', Table.mem_put_iff.2 (Or.inr ⟨ht', hold t' ht'⟩), hid⟩
    · exact ⟨t, Table.mem_put_self _ t, hdebit.entry.transactionId.symm⟩
    · exact ⟨t, Table.mem_put_self _ t, hcredit.entry.transactionId.symm⟩
  · intro t' ht' k
    have hlegs : (db.apply (.transaction t)).legs t'.id k = db.legs t'.id k := rfl
    rw [hcredit.legs, hdebit'.legs, hlegs]
    rcases Table.mem_put_iff.1 ht' with rfl | ⟨ht', hne⟩
    · rw [Db.legs, hempty, hdebit.amount_eq ht.row, hcredit.amount_eq ht.row]
      cases k <;> simp
    · rw [if_neg fun hc => hne hc.1.symm, if_neg fun hc => hne hc.1.symm]
      exact h.legs t' ht' k

theorem sumAmounts_eq (h : Doubled db) {t : Transaction} (ht : t ∈ db.transactions)
    (k : EntryType) : sumAmounts (db.entriesIn t.id) k = t.amount.1.toNumeric := by
  have hlegs := congrArg (List.map fun a : Amount => a.1.toNumeric) (h.legs t ht k)
  rw [Db.legs, List.map_map] at hlegs
  rw [sumAmounts]
  exact (congrArg Numeric.sum hlegs).trans (by simp)

/-- Every transaction nets to nothing. -/
theorem netOf_eq_zero (h : Doubled db) {t : Transaction} (ht : t ∈ db.transactions) :
    netOf t.id db.journal = 0 := by
  have hunits : ∀ k, (((db.entriesIn t.id).filter fun e => decide (e.entryType = k)).map
      fun e => e.amount.1.toUnits).sum = t.amount.1.toUnits := by
    intro k
    have hlegs := congrArg (List.map fun a : Amount => a.1.toUnits) (h.legs t ht k)
    rw [Db.legs, List.map_map] at hlegs
    exact (congrArg List.sum hlegs).trans (by simp)
  rw [netOf_journal, sum_signedUnits, hunits, hunits, sub_self]

/-- The invariant says what it should of every transaction and of the ledger. -/
theorem balanced (h : Doubled db) : (∀ t ∈ db.transactions, IsBalanced db t) ∧ SumsToZero db := by
  refine ⟨fun t ht => ⟨h.sumAmounts_eq ht .debit, h.sumAmounts_eq ht .credit⟩, ?_⟩
  have htotal : total db.journal = 0 := by
    refine total_eq_zero fun e he => ?_
    obtain ⟨e', he', rfl⟩ := List.mem_map.1 he
    obtain ⟨t, ht, hid⟩ := h.known e' he'
    rw [← hid]
    exact h.netOf_eq_zero ht
  rw [total_journal] at htotal
  rw [SumsToZero, sub_sumAmounts h.finite, htotal]
  simp

theorem beforeAccounts (db : Db) : Doubled db.beforeAccounts where
  finite := fun _ he => nomatch he
  known := fun _ he => nomatch he
  legs := fun _ ht => nomatch ht

/-- **One call** that names a destination keeps the invariant. -/
theorem step (h : Doubled db) {c : RpcCall}
    (hc : ∀ ctx args, c = .processTransaction ctx args → args.destAccount ≠ none) :
    Doubled (c.step db) := by
  rcases c.step_cases db with hsame | ⟨ctx, args, a, rfl, -, ha⟩ | ⟨ctx, args, t, rfl, -, ht⟩
  · exact h.of_eq hsame.transactions hsame.ledgerEntries
  · exact h.of_eq ha.frame.transactions ha.frame.ledgerEntries
  · exact h.transfer ht (hc ctx args rfl)

end Doubled

/-- A call of `process_transaction` names a destination. -/
def NamesDestination (_ : Db) : RpcCall → Prop
  | .createAccount _ _ => True
  | .processTransaction _ args => args.destAccount ≠ none

/-- **Every transaction is balanced and the ledger sums to zero**, in every state
reached by calls that name a destination. -/
theorem ledger_balanced {db₀ db : Db}
    (h : Reach (Deterministic RpcCall.step) NamesDestination db₀.beforeAccounts db) :
    (∀ t ∈ db.transactions, IsBalanced db t) ∧ SumsToZero db := by
  have hinv : Doubled db := by
    refine h.invariant (Doubled.beforeAccounts db₀) ?_
    rintro s c s' hs hc rfl
    refine hs.step ?_
    rintro ctx args rfl
    exact hc
  exact hinv.balanced

/-- The theorem at work: ten dollars from a credit account to a checking account. -/
theorem ledger_balanced_transfer :
    let db := (RpcCall.openings ++ [RpcCall.transfer 300 10 100 (some 200)]).foldl RpcCall.step
      Db.starter.beforeAccounts
    (∀ t ∈ db.transactions, IsBalanced db t) ∧ SumsToZero db := by
  refine ledger_balanced (reach_foldl RpcCall.step ?_ _)
  intro c hc s
  simp only [RpcCall.openings, List.cons_append, List.nil_append, List.mem_cons,
    List.not_mem_nil, or_false] at hc
  rcases hc with rfl | rfl | rfl
  · trivial
  · trivial
  · exact Option.some_ne_none _

/-- **A transfer to nowhere.**  Ten dollars from a credit account without a
destination leave one debit in the ledger and no credit. -/
theorem ledger_unbalanced_withoutDestination :
    ¬ ∀ db₀ db, Reach (Deterministic RpcCall.step) Always (Db.beforeAccounts db₀) db →
      (∀ t ∈ db.transactions, IsBalanced db t) ∧ SumsToZero db := by
  intro h
  let calls := RpcCall.openings ++ [.transfer 300 10 100 none]
  let db := calls.foldl RpcCall.step Db.starter.beforeAccounts
  have hbalanced := h Db.starter db (reach_foldl RpcCall.step (fun _ _ _ => trivial) _)
  have hunbalanced : (sumAmounts db.ledgerEntries.rows .credit).sub
      (sumAmounts db.ledgerEntries.rows .debit) = .finite (-10) := by
    decide +kernel
  rw [SumsToZero, hunbalanced] at hbalanced
  exact absurd hbalanced.2 (by decide)

end EnterpriseSystem
