import EnterpriseSystem.Database.AtOnce

/-!
# The books are serializable

READ COMMITTED lets the statements of a call see different committed rows.  The row locks and the
unique keys of `create_account` and `process_transaction` are enough for the books all the same:
however the calls interleave, the books are what the calls that have committed make of them one
after the other, in the order of their commits, and each has returned the row it would have then.

* `wp_checkAtOnce`, `wp_insertAtOnce`, `wp_moveAtOnce`, `wp_recordAtOnce` — the parts of a transfer.
* `wp_transferAtOnce`, `wp_openAtOnce` — the two functions.
* `serializable` — the result for every interleaving.
-/

namespace EnterpriseSystem

open Relational Concurrency

section

variable {ctx : Context} {args : TransactionArgs} {M : Db → Db → Prop} {own : List Write}
  {held : List LockKey} {db : Db}

theorem silent_checkRateLimit (key : Option String) (maxTokens refillRate : Option Int4) :
    Call.Within Write.Silent booking.Allowed (checkRateLimit ctx key maxTokens refillRate) :=
  (within_checkRateLimit (fun _ => trivial) ctx key maxTokens refillRate).mono (fun _ h => h)
    fun _ _ => trivial

theorem silent_detectBulkOperation (id : Uuid) (tableName op : String) :
    Call.Within Write.Silent booking.Allowed (detectBulkOperation ctx id tableName op) :=
  (within_detectBulkOperation (fun _ => trivial) ctx id tableName op).mono (fun _ h => h)
    fun _ _ => trivial

theorem toOption_of_ok {α : Type} {r : Except PgError α} {a : α} (h : r = .ok a) :
    r.toOption = some a := by
  rw [h]
  rfl

theorem bind_of_some {β γ : Type} {f : AtOnce β} {g : β → AtOnce γ} {b : β} {db db' : Db}
    (h : f db = some (b, db')) : (f >>= g) db = g b db' := by
  show (f db).bind _ = _
  rw [h]
  rfl

/-! ## The checks -/

/-- Only security events and rate limits have been written. -/
def Unbooked (own : List Write) : Prop := ∀ w ∈ own, w.Silent

theorem Unbooked.append {ws : List Write} (h : Unbooked own) (hws : ∀ w ∈ ws, w.Silent) :
    Unbooked (own ++ ws) := by
  intro w hw
  rcases List.mem_append.1 hw with hw | hw
  · exact h w hw
  · exact hws w hw

theorem Unbooked.sameBooks (h : Unbooked own) (db : Db) : db.SameBooks (view Db.apply db own) :=
  Db.SameRecords.sameBooks (view_silent h db)

/-- A call that has not booked anything. -/
def Begun (M : Db → Db → Prop) : Assertion Db Write LockKey := fun own held db =>
  Unbooked own ∧ Tracks M own held db

theorem robust_begun (M : Db → Db → Prop) : Robust booking Write.Silent (Begun M) where
  stable h hrely hinv := ⟨h.1, (robust_tracks M).stable h.2 hrely hinv⟩
  append h hws := ⟨h.1.append hws, (robust_tracks M).append h.2 hws⟩

/-- An account that is active stays active, with another balance at most. -/
theorem Booking.activeAccount {db db' : Db} (h : Booking held db db') {orgId id : Option Uuid}
    {a : Account} (ha : activeAccount orgId id db = some a) :
    ∃ a', EnterpriseSystem.activeAccount orgId id db' = some a' := by
  obtain ⟨hrow, horg, hactive⟩ := activeAccount_eq_some.1 ha
  obtain ⟨balance, updatedAt, hrow'⟩ := h.accounts.accountRow hrow
  exact ⟨_, activeAccount_eq_some.2 ⟨hrow', horg, hactive⟩⟩

/-- **The checks of a transfer** hold when it commits: the accounts are active still, and the source
is locked. -/
theorem wp_checkAtOnce (h : Begun M own held db) :
    Call.wp Db.apply booking (checkTransfer args)
      (fun _ => Begun (Then M (AtOnce.checkTransfer args) ())) own held db := by
  have hactive : ∀ (o i : Option Uuid) (db : Db),
      activeAccount o i (view Db.apply db own) = activeAccount o i db := by
    intro o i db
    rw [activeAccount, accountRow, (h.1.sameBooks db).accounts, activeAccount, accountRow]
  rw [checkTransfer, Call.wp_bind, Call.wp_select]
  intro db₁ hrely₁ hinv₁
  rw [Call.wp_bind, Call.wp_onlyIf]
  refine ⟨fun _ => trivial, fun hsource => ?_⟩
  rw [hactive, Option.isNone_iff_eq_none, ← ne_eq, Option.ne_none_iff_exists'] at hsource
  obtain ⟨a₁, ha₁⟩ := hsource
  have h₁ := (robust_begun M).stable h hrely₁ hinv₁
  rw [Call.wp_bind, Call.wp_select]
  intro db₂ hrely₂ hinv₂
  rw [Call.wp_bind, Call.wp_onlyIf]
  refine ⟨fun _ => trivial, fun hdest => ?_⟩
  rw [hactive] at hdest
  have h₂ := (robust_begun M).stable h₁ hrely₂ hinv₂
  rw [Call.wp_bind, Call.wp_statement]
  intro db₃ hrely₃ hinv₃
  have h₃ := (robust_begun M).stable h₂ hrely₃ hinv₃
  refine ⟨fun ws locked hexec => ?_, fun _ _ => trivial⟩
  cases hexec
  rw [Call.wp_onlyIf]
  refine ⟨fun _ => trivial, fun hfunds => ?_⟩
  refine ⟨h₃.1.append (by simp), h₃.2.next (fun db' hdb' => ?_) fun db' _ held' _ => .refl held' _⟩
  have hsince : Booking held db₃ db' := hdb'.mono fun k hk => List.mem_append_left _ hk
  -- the source, whose row is locked
  obtain ⟨a₃, ha₃⟩ := (hrely₂.trans hrely₃).activeAccount ha₁
  obtain ⟨hrow, horg, hstatus⟩ := activeAccount_eq_some.1 ha₃
  obtain ⟨i, hi, hget⟩ := Option.bind_eq_some_iff.1 hrow
  have hview : accountRow args.sourceAccount (view Db.apply db₃ own) = some a₃ := by
    rw [accountRow, (h.1.sameBooks db₃).accounts]
    exact hrow
  have hlock : accountLock i ∈ held ++ lockAccount args.sourceAccount (view Db.apply db₃ own) :=
    List.mem_append_right _ (by simp [lockAccount, hview, Table.key_of_get? hget])
  have hrow' : accountRow args.sourceAccount db' = some a₃ := by
    rw [hi]
    exact (hdb'.account i hlock).trans hget
  have hsource' : activeAccount args.orgId args.sourceAccount (view Db.apply db' own).books =
      some a₃ := by
    have hback : activeAccount args.orgId args.sourceAccount (view Db.apply db' own).books =
        activeAccount args.orgId args.sourceAccount (view Db.apply db' own) := rfl
    rw [hback, hactive]
    exact activeAccount_eq_some.2 ⟨hrow', horg, hstatus⟩
  -- the destination, which stays active
  have hdest' : args.destAccount = none ∨
      (activeAccount args.orgId args.destAccount (view Db.apply db' own).books).isSome = true := by
    by_cases hnone : args.destAccount = none
    · exact Or.inl hnone
    obtain ⟨d, hd⟩ : ∃ d, activeAccount args.orgId args.destAccount db₂ = some d := by
      refine Option.ne_none_iff_exists'.1 fun hc => hdest ⟨hnone, ?_⟩
      rw [hc]
      rfl
    obtain ⟨d', hd'⟩ := (hrely₃.trans hsince).activeAccount hd
    refine Or.inr ?_
    have hback : activeAccount args.orgId args.destAccount (view Db.apply db' own).books =
        activeAccount args.orgId args.destAccount (view Db.apply db' own) := rfl
    rw [hback, hactive, hd']
    rfl
  have hcovered : a₃.type ≠ .credit →
      ¬ (sqlLt (some a₃.balance.1.toNumeric) args.amount).Holds := by
    intro hcredit hshort
    refine hfunds ?_
    rw [hview]
    simpa [hcredit] using hshort
  rw [AtOnce.checkTransfer, hsource', view_nil]
  simp only [Option.bind_eq_bind, Option.bind_some, guard, if_pos hdest', if_pos hcovered]
  rfl

/-! ## The rows of a transfer -/

/-- **The row of `transactions`** can be inserted when the call commits: its identifier and its key
are locked. -/
theorem wp_insertAtOnce (h : Begun M own held db) :
    Call.wp Db.apply booking (insertTransaction ctx args)
      (fun t own held db => IsNewTransaction ctx args t ∧
        Tracks (Then M (AtOnce.insertTransaction ctx args) t) own held db) own held db := by
  rw [insertTransaction, Call.wp_bind, Call.wp_evaluate]
  refine ⟨fun uid huid => ?_, fun _ _ => trivial⟩
  rw [Call.wp_bind, Call.wp_statement]
  intro db₁ hrely hinv
  have h₁ := (robust_begun M).stable h hrely hinv
  refine ⟨fun ws t hexec => ?_, fun _ _ => trivial⟩
  obtain ⟨t, hnew, hexec⟩ := bind_eq_ok.1 hexec
  split at hexec
  · cases hexec
  rename_i hid
  split at hexec
  · cases hexec
  rename_i hkey
  split at hexec
  · cases hexec
  rename_i horg
  repeat' split at hexec
  all_goals cases hexec
  have hrow := newTransaction_ok hnew
  have hid := Table.contains_eq_false_iff.1 (Bool.eq_false_of_not_eq_true hid)
  have hkey := Bool.eq_false_of_not_eq_true hkey
  rw [keyTaken, (h.1.sameBooks db₁).transactions, ← keyTaken] at hkey
  rw [(h.1.sameBooks db₁).transactions] at hid
  rw [(h.1.sameBooks db₁).organizations, not_not] at horg
  have hfresh : ∀ {db'}, Booking (held ++ .row .transactions (ctx.uuid 0) ::
      (args.idempotencyKey.map .idempotencyKey).toList) db₁ db' →
      (view Db.apply db' own).transactions.get? t.id = none := by
    intro db' hdb'
    rw [(h.1.sameBooks db').transactions,
      hdb'.transaction _ (List.mem_append_right _ (by simp [hrow.id])), hid]
  have htracks : Tracks (Then M (AtOnce.insertTransaction ctx args) t) (own ++ [.transaction t])
      (held ++ .row .transactions (ctx.uuid 0) ::
        (args.idempotencyKey.map .idempotencyKey).toList) db₁ := by
    refine h₁.2.next (fun db' hdb' => ?_) fun db' hdb' held' hdisjoint => ?_
    · have hkey' : keyTaken t.idempotencyKey (view Db.apply db' own).books = false := by
        show keyTaken t.idempotencyKey (view Db.apply db' own) = false
        rw [keyTaken, (h.1.sameBooks db').transactions, ← keyTaken]
        cases hk : t.idempotencyKey with
        | none => rfl
        | some k =>
          have hlock : .idempotencyKey k ∈ held ++ .row .transactions (ctx.uuid 0) ::
              (args.idempotencyKey.map LockKey.idempotencyKey).toList :=
            List.mem_append_right _ (by simp [← hrow.idempotencyKey, hk])
          rw [hdb'.key k hlock, ← hk]
          exact hkey
      have horg' : (view Db.apply db' own).books.organizations.contains t.orgId = true := by
        show (view Db.apply db' own).organizations.contains t.orgId = true
        rw [(h.1.sameBooks db').organizations, hdb'.organizations]
        exact horg
      have hguard : (view Db.apply db' own).books.transactions.contains t.id = false ∧
          keyTaken t.idempotencyKey (view Db.apply db' own).books = false ∧
          (view Db.apply db' own).books.organizations.contains t.orgId = true :=
        ⟨Table.contains_eq_false_iff.2 (hfresh hdb'), hkey', horg'⟩
      simp only [AtOnce.insertTransaction, toOption_of_ok huid, toOption_of_ok hnew,
        Option.bind_eq_bind, Option.bind_some, guard, if_pos hguard]
      rfl
    · refine booking_insertTransaction (hfresh hdb') (hdisjoint _ ?_) fun k hk => hdisjoint _ ?_
      · exact List.mem_append_right _ (by simp [hrow.id])
      · exact List.mem_append_right _ (by simp [← hrow.idempotencyKey, hk])
  rw [Call.wp_bind]
  exact Call.wp_mono (fun _ _ _ _ h => ⟨hrow, h⟩)
    ((robust_tracks _).wp (silent_detectBulkOperation _ _ _) htracks)

/-! ## The audit log -/

theorem rows_unchainedLog (t : Table AuditEntry.id) :
    (unchainedLog t).rows = t.rows.map AuditEntry.unchained := by
  simp [unchainedLog]

theorem get?_unchainedLog (t : Table AuditEntry.id) (id : Uuid) :
    (unchainedLog t).get? id = (t.get? id).map AuditEntry.unchained := by
  simp [unchainedLog, Table.get?_update]

/-- Erasing the hashes commutes with the insertion of a row. -/
theorem unchainedLog_put {t : Table AuditEntry.id} {e : AuditEntry} (hfresh : t.get? e.id = none) :
    unchainedLog (t.put e) = (unchainedLog t).put e.unchained := by
  have hfresh' : (unchainedLog t).get? e.unchained.id = none := by
    rw [e.unchained_id, get?_unchainedLog, hfresh]
    rfl
  have hrows : (unchainedLog (t.put e)).rows = ((unchainedLog t).put e.unchained).rows := by
    rw [Table.rows_put_of_get?_none hfresh', rows_unchainedLog, rows_unchainedLog,
      Table.rows_put_of_get?_none hfresh, List.map_append]
    rfl
  cases hleft : unchainedLog (t.put e)
  cases hright : (unchainedLog t).put e.unchained
  rw [hleft, hright] at hrows
  cases hrows
  rfl

theorem books_writeAuditLog {e : AuditEntry} (hfresh : db.auditLog.get? e.id = none) :
    (db.apply (.auditEntry e)).books = db.books.apply (.auditEntry e.unchained) := by
  have hlog : unchainedLog (db.auditLog.put e) = (unchainedLog db.auditLog).put e.unchained :=
    unchainedLog_put hfresh
  simp only [Db.books, Db.apply, hlog]

/-- The hash before a row is part of the chain only. -/
theorem unchained_newAuditEntry {uid id : Uuid} {action : AuditAction} {tableName : String}
    {recordId : Option Uuid} {oldData newData : Option JsonObject} {prevHash : Option String} :
    (newAuditEntry ctx uid id action tableName recordId oldData newData prevHash).unchained =
      (newAuditEntry ctx uid id action tableName recordId oldData newData none).unchained := by
  simp only [newAuditEntry, AuditEntry.unchained]

/-- An identifier of the audit log that a call has locked stays unused. -/
theorem Booking.view_audit {db db' : Db} (h : Booking held db db') {id : Uuid}
    (hlock : .row .auditLog id ∈ held)
    (hfree : (view Db.apply db own).auditLog.get? id = none) :
    (view Db.apply db' own).auditLog.get? id = none := by
  rw [view_auditLog, Table.get?_foldl_put_eq_none_iff] at hfree ⊢
  exact ⟨(h.audit id hlock).trans hfree.1, hfree.2⟩

/-- **An audit row** can be inserted when the call commits. -/
theorem wp_auditAtOnce {id : Uuid} {action : AuditAction} {tableName : String}
    {recordId : Option Uuid} {oldData newData : Option JsonObject} (h : Tracks M own held db) :
    Call.wp Db.apply booking (writeAuditLog ctx id action tableName recordId oldData newData)
      (fun _ => Tracks (Then M
        (AtOnce.writeAuditLog ctx id action tableName recordId oldData newData) ()))
      own held db := by
  rw [writeAuditLog, Call.wp_bind, Call.wp_select]
  intro db₁ hrely₁ hinv₁
  rw [Call.wp_bind, Call.wp_evaluate]
  refine ⟨fun uid huid => ?_, fun _ _ => trivial⟩
  rw [Call.wp_statement]
  intro db₂ hrely₂ hinv₂
  have h₂ := (robust_tracks M).stable ((robust_tracks M).stable h hrely₁ hinv₁) hrely₂ hinv₂
  refine ⟨fun ws _ hexec => ?_, fun _ _ => trivial⟩
  split at hexec
  · cases hexec
  rename_i hid
  cases hexec
  have hid := Table.contains_eq_false_iff.1 (Bool.eq_false_of_not_eq_true hid)
  have hlock : .row .auditLog id ∈ held ++ [.row .auditLog id] := List.mem_append_right _ (by simp)
  refine h₂.next (fun db' hdb' => ?_) fun db' hdb' held' hdisjoint => ?_
  · have hfresh := hdb'.view_audit hlock hid
    have hunused : (view Db.apply db' own).books.auditLog.contains id = false := by
      rw [Table.contains_eq_false_iff]
      show (unchainedLog (view Db.apply db' own).auditLog).get? id = none
      rw [get?_unchainedLog, hfresh]
      rfl
    rw [view_cons, view_nil, books_writeAuditLog hfresh, unchained_newAuditEntry]
    simp only [AtOnce.writeAuditLog, toOption_of_ok huid, Option.bind_eq_bind, Option.bind_some,
      guard, if_pos hunused]
    rfl
  · exact booking_writeAuditLog (hdisjoint _ hlock)

/-! ## The balances -/

/-- A call has locked the account and sees this row of it. -/
def HasRow (a : Account) : Assertion Db Write LockKey := fun own held db =>
  accountLock a.id ∈ held ∧ (view Db.apply db own).accounts.get? a.id = some a

theorem robust_hasRow (a : Account) : Robust booking Write.NotAccount (HasRow a) where
  stable := by
    rintro own held db db' ⟨hlock, hrow⟩ hrely hinv
    refine ⟨hlock, ?_⟩
    rw [view_get?_congr (hrely.account _ hlock)]
    exact hrow
  append := by
    rintro own held db ws ks ⟨hlock, hrow⟩ hws
    refine ⟨List.mem_append_left _ hlock, ?_⟩
    rw [view_append, view_accounts hws]
    exact hrow

/-- **The trigger** passes the balance and tells the audit log of the change. -/
theorem wp_validateAtOnce {id : Uuid} {old : Account} {balance : Money} (h : Tracks M own held db) :
    Call.wp Db.apply booking (validateBalance ctx id old balance)
      (fun _ => Tracks (Then M (AtOnce.validateBalance ctx id old balance) ())) own held db := by
  rw [validateBalance, Call.wp_bind, Call.wp_onlyIf]
  refine ⟨fun _ => trivial, fun hraise => ?_⟩
  have hsolvent : old.type ≠ .credit → balance.toNumeric.lt (.finite 0) = false := by
    intro hcredit
    simpa [hcredit] using hraise
  have hpassed : ∀ db : Db, (StateT.lift (guard (old.type ≠ .credit →
      balance.toNumeric.lt (.finite 0) = false)) : AtOnce Unit) db = some ((), db) := by
    intro db
    rw [guard, if_pos hsolvent]
    rfl
  rw [Call.wp_onlyIf]
  constructor
  · intro hmoves
    rw [Call.wp_bind]
    refine Call.wp_mono (fun _ own held db h => h.mono ?_) (wp_auditAtOnce h)
    rintro db db' ⟨between, hM, haudit⟩
    refine ⟨between, hM, ?_⟩
    rw [AtOnce.validateBalance, bind_of_some (hpassed between), if_pos hmoves]
    exact haudit
  · intro hstays
    refine h.mono fun db db' hM => ⟨db', hM, ?_⟩
    rw [AtOnce.validateBalance, bind_of_some (hpassed db'), if_neg hstays]
    rfl

/-- **A new balance** is the one that the committed balance has led to, because the account is
locked. -/
theorem wp_moveAtOnce {site : ℕ} {id : Option Uuid} {f : Numeric → Numeric}
    (h : Tracks M own held db) :
    Call.wp Db.apply booking (updateBalance ctx site id f)
      (fun b own held db => b = none ∨ ∃ balance, b = some balance ∧
        Tracks (Then M (AtOnce.updateBalance ctx site id f) balance) own held db) own held db := by
  rw [updateBalance, Call.wp_bind, Call.wp_statement]
  intro db₁ hrely hinv
  have h₁ := (robust_tracks M).stable h hrely hinv
  refine ⟨fun ws row hexec => ?_, fun _ _ => trivial⟩
  cases hrow : accountRow id (view Db.apply db₁ own) with
  | none =>
    simp only [hrow] at hexec
    cases hexec
    rw [Call.wp_bind]
    exact Call.wp_mono (fun _ _ _ _ _ => Or.inl rfl) ((robust_tracks M).wp
      (silent_detectBulkOperation _ _ _) ((robust_tracks M).append h₁ (by simp)))
  | some a =>
    simp only [hrow] at hexec
    obtain ⟨stored, hstore, hexec⟩ := bind_eq_ok.1 hexec
    obtain ⟨balance, hbalance, hexec⟩ := bind_eq_ok.1 hexec
    cases hexec
    rw [notNull_ok] at hbalance
    subst hbalance
    obtain ⟨_, hq, hstore⟩ := storeMoney_ok.1 hstore
    cases hq
    obtain ⟨i, rfl, hget⟩ := Option.bind_eq_some_iff.1 hrow
    obtain rfl : a.id = i := Table.key_of_get? hget
    have hheld : lockAccount (some a.id) (view Db.apply db₁ own) = [accountLock a.id] := by
      simp [lockAccount, hrow]
    rw [hheld]
    have hlocked : HasRow a (own ++ []) (held ++ [accountLock a.id]) db₁ := by
      rw [List.append_nil]
      exact ⟨List.mem_append_right _ (by simp), hget⟩
    have hnext : Tracks (Then M (AtOnce.nextBalance (some a.id) f) (a, balance)) (own ++ [])
        (held ++ [accountLock a.id]) db₁ := by
      refine h₁.next (fun db' hdb' => ?_) fun db' _ held' _ => .refl held' _
      have hfound : accountRow (some a.id) (view Db.apply db' own).books = some a := by
        show (view Db.apply db' own).accounts.get? a.id = some a
        rw [view_get?_congr (hdb'.account _ (List.mem_append_right _ (by simp)))]
        exact hget
      simp only [AtOnce.nextBalance, hfound, hstore, Option.bind_eq_bind, Option.bind_some]
      rfl
    have hkept : Call.wp Db.apply booking (validateBalance ctx (ctx.uuid site) a balance)
        (fun _ => HasRow a) (own ++ []) (held ++ [accountLock a.id]) db₁ :=
      (robust_hasRow a).wp (within_validateBalance (fun _ hw => Write.Quiet.notAccount hw) ctx
        (ctx.uuid site) a balance) hlocked
    rw [Call.wp_bind]
    refine Call.wp_mono (fun _ own held db h => ?_) (Call.wp_and (wp_validateAtOnce hnext) hkept)
    rw [Call.wp_bind, Call.wp_evaluate]
    refine ⟨fun checked hchecked => ?_, fun _ _ => trivial⟩
    rw [Call.wp_bind, Call.wp_statement]
    intro db₂ hrely₂ hinv₂
    refine ⟨fun ws _ hexec => ?_, fun _ _ => trivial⟩
    cases hexec
    have htracks := (robust_tracks _).stable h.1 hrely₂ hinv₂
    obtain ⟨hlock, hrow₂⟩ := (robust_hasRow a).stable h.2 hrely₂ hinv₂
    have hmoved : Tracks (Then M (AtOnce.updateBalance ctx site (some a.id) f) balance)
        (own ++ [.account { a with balance := checked, updatedAt := ctx.now }]) (held ++ []) db₂ := by
      have hstored : Tracks (Then (Then (Then M (AtOnce.nextBalance (some a.id) f) (a, balance))
          (AtOnce.validateBalance ctx (ctx.uuid site) a balance) ())
          (AtOnce.storeBalance ctx a balance) ())
          (own ++ [.account { a with balance := checked, updatedAt := ctx.now }]) (held ++ [])
          db₂ := by
        refine htracks.next (fun db' hdb' => ?_) fun db' hdb' held' hdisjoint => ?_
        · simp only [AtOnce.storeBalance, toOption_of_ok hchecked, Option.bind_eq_bind,
            Option.bind_some]
          rfl
        · refine booking_moveBalance ?_ (hdisjoint _ (List.mem_append_left _ hlock))
          rw [view_get?_congr (hdb'.account _ (List.mem_append_left _ hlock))]
          exact hrow₂
      refine hstored.mono ?_
      rintro db db' ⟨db₃, ⟨db₂, ⟨db₁, hM, hnext⟩, hvalidate⟩, hstore⟩
      refine ⟨db₁, hM, ?_⟩
      rw [AtOnce.updateBalance, bind_of_some hnext, bind_of_some hvalidate, bind_of_some hstore]
      rfl
    rw [Call.wp_bind]
    exact Call.wp_mono (fun _ _ _ _ h => Or.inr ⟨balance, rfl, h⟩)
      ((robust_tracks _).wp (silent_detectBulkOperation _ _ _) hmoved)

/-- An identifier of the ledger that a call has locked stays unused. -/
theorem Booking.view_entry {db db' : Db} (h : Booking held db db') {id : Uuid}
    (hlock : .row .ledgerEntries id ∈ held)
    (hfree : (view Db.apply db own).ledgerEntries.get? id = none) :
    (view Db.apply db' own).ledgerEntries.get? id = none := by
  rw [view_ledgerEntries, Table.get?_foldl_put_eq_none_iff] at hfree ⊢
  exact ⟨(h.entry id hlock).trans hfree.1, hfree.2⟩

/-- **The row of `ledger_entries`** can be inserted when the call commits. -/
theorem wp_recordAtOnce {id transactionId : Uuid} {accountId : Option Uuid} {entryType : EntryType}
    {balance : Money} (h : Tracks M own held db) :
    Call.wp Db.apply booking
      (insertLedgerEntry ctx id args transactionId accountId entryType (some balance))
      (fun _ => Tracks (Then M
        (AtOnce.insertLedgerEntry ctx id args transactionId accountId entryType balance) ()))
      own held db := by
  rw [insertLedgerEntry, Call.wp_bind, Call.wp_evaluate]
  refine ⟨fun uid huid => ?_, fun _ _ => trivial⟩
  rw [Call.wp_statement]
  intro db₁ hrely hinv
  have h₁ := (robust_tracks M).stable h hrely hinv
  refine ⟨fun ws _ hexec => ?_, fun _ _ => trivial⟩
  obtain ⟨e, hnew, hexec⟩ := bind_eq_ok.1 hexec
  split at hexec
  · cases hexec
  rename_i hid
  repeat' split at hexec
  all_goals cases hexec
  obtain ⟨hstamp, -⟩ := newLedgerEntry_stamp hnew
  have hid := Table.contains_eq_false_iff.1 (Bool.eq_false_of_not_eq_true hid)
  have hlock : .row .ledgerEntries e.id ∈ held ++ [.row .ledgerEntries id] :=
    List.mem_append_right _ (by simp [hstamp])
  refine h₁.next (fun db' hdb' => ?_) fun db' hdb' held' hdisjoint => ?_
  · have hfresh : (view Db.apply db' own).books.ledgerEntries.contains e.id = false :=
      Table.contains_eq_false_iff.2 (hdb'.view_entry hlock hid)
    simp only [AtOnce.insertLedgerEntry, toOption_of_ok huid, toOption_of_ok hnew,
      Option.bind_eq_bind, Option.bind_some, guard, if_pos hfresh]
    rfl
  · exact booking_insertLedgerEntry (hdisjoint _ hlock)

/-- **A posting.** -/
theorem wp_postAtOnce {site : ℕ} {transactionId : Uuid} {accountId : Option Uuid}
    {entryType : EntryType} {amount : Numeric} (h : Tracks M own held db) :
    Call.wp Db.apply booking (postEntry ctx site args transactionId accountId entryType amount)
      (fun _ => Tracks (Then M
        (AtOnce.postEntry ctx site args transactionId accountId entryType amount) ()))
      own held db := by
  rw [postEntry, Call.wp_bind]
  refine Call.wp_mono (fun b own held db h => ?_) (wp_moveAtOnce h)
  rcases h with rfl | ⟨balance, rfl, h⟩
  · -- no account, no balance to record
    rw [insertLedgerEntry, Call.wp_bind, Call.wp_evaluate]
    refine ⟨fun uid _ => ?_, fun _ _ => trivial⟩
    rw [Call.wp_statement]
    intro db' _ _
    refine ⟨fun ws _ hexec => ?_, fun _ _ => trivial⟩
    obtain ⟨e, hrow, -⟩ := bind_eq_ok.1 hexec
    cases (newLedgerEntry_ok hrow).balanceAfter
  · refine Call.wp_mono (fun _ own held db h => h.mono ?_) (wp_recordAtOnce h)
    rintro db db' ⟨db₂, ⟨db₁, hM, hmove⟩, hrecord⟩
    refine ⟨db₁, hM, ?_⟩
    rw [AtOnce.postEntry, bind_of_some hmove]
    exact hrecord

/-! ## The functions -/

/-- **The writes of a transfer.** -/
theorem wp_transferAtOnce (h : Begun M own held db) :
    Call.wp Db.apply booking (postTransfer ctx args)
      (fun t => Tracks (Then M (AtOnce.postTransfer ctx args) t)) own held db := by
  have hdone : ∀ {t amount own held db},
      Tracks (Then (Then (Then M (AtOnce.insertTransaction ctx args) t)
        (AtOnce.postEntry ctx 2 args t.id args.sourceAccount .debit amount) ())
        (if args.destAccount ≠ none then
          AtOnce.postEntry ctx 5 args t.id args.destAccount .credit amount else pure ()) ())
        own held db → args.amount = some amount →
      Call.wp Db.apply booking (do
        let _ ← writeAuditLog ctx (ctx.uuid 8) .create "transactions" (some t.id) none
          (some [("type", .ofText (args.type.map TransactionType.label)),
            ("amount", .ofNumeric args.amount), ("source", .ofUuid args.sourceAccount),
            ("dest", .ofUuid args.destAccount),
            ("idempotency_key", .ofText args.idempotencyKey)])
        return t) (fun t => Tracks (Then M (AtOnce.postTransfer ctx args) t)) own held db := by
    intro t amount own held db h hamount
    rw [Call.wp_bind]
    refine Call.wp_mono (fun _ own held db h => Tracks.mono h ?_) (wp_auditAtOnce h)
    rintro db db' ⟨db₄, ⟨db₃, ⟨db₂, ⟨db₁, hM, hinsert⟩, hdebit⟩, hcredit⟩, haudit⟩
    refine ⟨db₁, hM, ?_⟩
    have hlift : (StateT.lift args.amount : AtOnce Numeric) db₂ = some (amount, db₂) := by
      rw [hamount]
      rfl
    rw [AtOnce.postTransfer, bind_of_some hinsert, bind_of_some hlift, bind_of_some hdebit,
      bind_of_some hcredit, bind_of_some haudit]
    rfl
  rw [postTransfer, Call.wp_bind]
  refine Call.wp_mono (fun t own held db h => ?_) (wp_insertAtOnce h)
  rw [Call.wp_bind, Call.wp_evaluate]
  refine ⟨fun amount hamount => ?_, fun _ _ => trivial⟩
  rw [notNull_ok] at hamount
  rw [Call.wp_bind]
  refine Call.wp_mono (fun _ own held db h => ?_) (wp_postAtOnce h.2)
  rw [Call.wp_bind, Call.wp_onlyIf]
  constructor
  · intro hdest
    refine Call.wp_mono (fun _ own held db h => hdone ?_ hamount) (wp_postAtOnce h)
    rw [if_pos hdest]
    exact h
  · intro hnone
    refine hdone ?_ hamount
    rw [if_neg hnone]
    exact h.mono fun db db' hM => ⟨db', hM, rfl⟩

/-- A transfer has found its key unused, so no row can be returned for it. -/
theorem processTransaction_of_transfer {db db' : Db} {t : Transaction}
    (h : Then (Then Eq (AtOnce.checkTransfer args) ()) (AtOnce.postTransfer ctx args) t db db') :
    AtOnce.processTransaction ctx args db = some (t, db') := by
  obtain ⟨db₁, ⟨_, rfl, hcheck⟩, hpost⟩ := h
  have hsame : db₁ = db := by
    simp only [AtOnce.checkTransfer, Option.bind_eq_bind, Option.bind_eq_some_iff] at hcheck
    obtain ⟨_, -, _, -, _, -, hcheck⟩ := hcheck
    cases hcheck
    rfl
  subst hsame
  have hkey : keyTaken args.idempotencyKey db₁ = false := by
    cases hinsert : AtOnce.insertTransaction ctx args db₁ with
    | none =>
      have hnone : AtOnce.postTransfer ctx args db₁ = none := by
        rw [AtOnce.postTransfer]
        show (AtOnce.insertTransaction ctx args db₁).bind _ = _
        rw [hinsert]
        rfl
      rw [hnone] at hpost
      cases hpost
    | some p =>
      simp only [AtOnce.insertTransaction, Option.bind_eq_bind, Option.bind_eq_some_iff] at hinsert
      obtain ⟨uid, -, t', hnew, _, hguard, -⟩ := hinsert
      have hrow : IsNewTransaction ctx args t' := by
        cases hresult : newTransaction ctx uid (ctx.uuid 0) args with
        | error e => simp [hresult, Except.toOption] at hnew
        | ok t'' =>
          obtain rfl : t'' = t' := by simpa [hresult, Except.toOption] using hnew
          exact newTransaction_ok hresult
      simp only [guard, Option.failure_eq_none] at hguard
      split at hguard
      · rename_i hfree
        rw [← hrow.idempotencyKey]
        exact hfree.2.1
      · cases hguard
  have hnone : existingTransaction args db₁ = none := by
    cases hk : args.idempotencyKey with
    | none => simp [existingTransaction, hk]
    | some k =>
      rw [hk] at hkey
      simp only [keyTaken, Option.any_some, List.any_eq_false, decide_eq_true_eq] at hkey
      simp only [existingTransaction, hk, Option.bind_some]
      cases horg : args.orgId with
      | none => rfl
      | some o =>
        rw [Option.bind_some, List.find?_eq_none]
        intro t' ht'
        simp [hkey t' ht']
  rw [AtOnce.processTransaction, hnone]
  exact (bind_of_some hcheck).trans hpost

/-- A complete row that is there for a key is found when the call commits. -/
theorem Booking.existingTransaction {db db' : Db} (h : Booking held db db') {t : Transaction}
    (ht : existingTransaction args db = some t) :
    EnterpriseSystem.existingTransaction args db' = some t := by
  obtain ⟨k, hk, ht⟩ := Option.bind_eq_some_iff.1 ht
  obtain ⟨o, ho, ht⟩ := Option.bind_eq_some_iff.1 ht
  obtain ⟨ts, hts⟩ := h.rows
  rw [EnterpriseSystem.existingTransaction, hk, ho, Option.bind_some, Option.bind_some, ← hts,
    List.find?_append, ht]
  rfl

/-- **`process_transaction`** happens at its commit. -/
theorem wp_processAtOnce (h : Begun Eq own held db) :
    Call.wp Db.apply booking (processTransaction ctx args)
      (fun t => Tracks fun db db' => AtOnce.processTransaction ctx args db = some (t, db'))
      own held db := by
  rw [processTransaction, Call.wp_bind]
  refine Call.wp_mono (fun allowed own held db h => ?_)
    ((robust_begun Eq).wp (silent_checkRateLimit _ _ _) h)
  rw [Call.wp_bind, Call.wp_onlyIf]
  refine ⟨fun _ => trivial, fun _ => ?_⟩
  rw [Call.wp_bind, Call.wp_select]
  intro db₁ hrely hinv
  have h₁ := (robust_begun Eq).stable h hrely hinv
  split
  · rename_i t hreplay
    refine ⟨fun db' hdb' => ?_, h₁.2.others⟩
    obtain ⟨hexisting, hcomplete⟩ := Option.filter_eq_some_iff.1 hreplay
    have hfound : existingTransaction args db'.books = some t := by
      refine hdb'.existingTransaction ?_
      rw [← hexisting, existingTransaction, existingTransaction, (h.1.sameBooks db₁).transactions]
    have hfilter : ((existingTransaction args db'.books).filter fun t => decide t.IsNotNull) =
        some t := by
      rw [hfound]
      exact Option.filter_eq_some_iff.2 ⟨rfl, hcomplete⟩
    rw [AtOnce.processTransaction, hfilter, ← h₁.2.step db' hdb']
  · rw [Call.wp_bind]
    refine Call.wp_mono (fun _ own held db h => ?_) (wp_checkAtOnce h₁)
    exact Call.wp_mono (fun t own held db h => h.mono fun _ _ => processTransaction_of_transfer)
      (wp_transferAtOnce h)

/-- The call may open an account: its bucket is locked, and there was room for one more. -/
def MayOpen (ctx : Context) : Assertion Db Write LockKey := fun own held db =>
  Begun Eq own held db ∧ .rateLimit ("create_account:" ++ formatUuid (authOrgId ctx)) ∈ held ∧
    ¬ ((sqlEq (orgPlan ctx db) (some .free)).Holds ∧ 3 ≤ accountCount ctx db)

/-- Where the bucket of an organization is locked, nobody opens an account of it. -/
theorem Booking.plan {db db' : Db} (h : Booking held db db') {o : Uuid}
    (horg : authOrgId ctx = some o)
    (hbucket : .rateLimit ("create_account:" ++ formatUuid (authOrgId ctx)) ∈ held) :
    orgPlan ctx db' = orgPlan ctx db ∧ accountCount ctx db' = accountCount ctx db := by
  have hcount : ∀ db, accountCount ctx db = accountsOf o db := by
    intro db
    simp only [accountCount, accountsOf, horg, Option.some.injEq, eq_comm (a := o)]
  rw [horg] at hbucket
  refine ⟨by rw [orgPlan, orgPlan, h.organizations], ?_⟩
  rw [hcount, hcount]
  exact h.bucket o hbucket

/-- **The row of `accounts`** can be inserted when the call commits. -/
theorem wp_insertAccountAtOnce {args : AccountArgs} (h : MayOpen ctx own held db) :
    Call.wp Db.apply booking (insertAccount ctx args)
      (fun a => Tracks (Then Eq (AtOnce.insertAccount ctx args) a)) own held db := by
  obtain ⟨hbegun, hbucket, hroom⟩ := h
  rw [insertAccount, Call.wp_bind, Call.wp_evaluate]
  refine ⟨fun uid huid => ?_, fun _ _ => trivial⟩
  rw [Call.wp_bind, Call.wp_statement]
  intro db₁ hrely hinv
  have h₁ := (robust_begun Eq).stable hbegun hrely hinv
  refine ⟨fun ws a hexec => ?_, fun _ _ => trivial⟩
  obtain ⟨a, hnew, hexec⟩ := bind_eq_ok.1 hexec
  split at hexec
  · cases hexec
  rename_i hid
  split at hexec
  · cases hexec
  rename_i horg
  cases hexec
  have hrow := newAccount_ok hnew
  have hid := Table.contains_eq_false_iff.1 (Bool.eq_false_of_not_eq_true hid)
  rw [(h₁.1.sameBooks db₁).accounts] at hid
  rw [(h₁.1.sameBooks db₁).organizations, not_not] at horg
  have hlock : accountLock a.id ∈ held ++ [.row .accounts (ctx.uuid 0)] :=
    List.mem_append_right _ (by simp [hrow.id])
  have hfresh : ∀ {db'}, Booking (held ++ [.row .accounts (ctx.uuid 0)]) db₁ db' →
      (view Db.apply db' own).accounts.get? a.id = none := by
    intro db' hdb'
    rw [(h₁.1.sameBooks db').accounts, hdb'.account _ hlock, hid]
  have htracks : Tracks (Then Eq (AtOnce.insertAccount ctx args) a) (own ++ [.account a])
      (held ++ [.row .accounts (ctx.uuid 0)]) db₁ := by
    refine h₁.2.next (fun db' hdb' => ?_) fun db' hdb' held' hdisjoint => ?_
    · have hsame := h₁.1.sameBooks db'
      have hsince : Booking held db₁ db' := hdb'.mono fun k hk => List.mem_append_left _ hk
      obtain ⟨hplan, hcount⟩ := (hrely.trans hsince).plan hrow.orgId hbucket
      have hguard : ¬ ((sqlEq (orgPlan ctx (view Db.apply db' own).books) (some .free)).Holds ∧
          3 ≤ accountCount ctx (view Db.apply db' own).books) := by
        have hview : orgPlan ctx (view Db.apply db' own).books = orgPlan ctx db' ∧
            accountCount ctx (view Db.apply db' own).books = accountCount ctx db' := by
          rw [orgPlan, orgPlan, accountCount, accountCount]
          exact ⟨by rw [← hsame.organizations]; rfl, by rw [← hsame.accounts]; rfl⟩
        rw [hview.1, hview.2, hplan, hcount]
        exact hroom
      have hrow' : (view Db.apply db' own).books.accounts.contains a.id = false ∧
          (view Db.apply db' own).books.organizations.contains a.orgId = true := by
        refine ⟨Table.contains_eq_false_iff.2 (hfresh hdb'), ?_⟩
        show (view Db.apply db' own).organizations.contains a.orgId = true
        rw [hsame.organizations, hsince.organizations]
        exact horg
      simp only [AtOnce.insertAccount, Option.bind_eq_bind, guard, if_pos hguard,
        toOption_of_ok huid, toOption_of_ok hnew, Option.bind_some, if_pos hrow']
      rfl
    · rw [hrow.orgId] at hbucket
      exact booking_openAccount (hfresh hdb') (hdisjoint _ hlock)
        (hdisjoint _ (List.mem_append_left _ hbucket))
  rw [Call.wp_bind]
  exact Call.wp_mono (fun _ _ _ _ h => h)
    ((robust_tracks _).wp (silent_detectBulkOperation _ _ _) htracks)

/-- **`create_account`** happens at its commit, because the bucket of the organization is locked. -/
theorem wp_openAtOnce {args : AccountArgs} (h : Begun Eq own held db) :
    Call.wp Db.apply booking (createAccount ctx args)
      (fun a => Tracks fun db db' => AtOnce.createAccount ctx args db = some (a, db'))
      own held db := by
  rw [createAccount, Call.wp_bind]
  have hlocks : Robust booking Write.Quiet fun _ _ _ => True := ⟨fun _ _ _ => trivial, fun _ _ => trivial⟩
  refine Call.wp_mono (fun allowed own held db h => ?_) (Call.wp_and
    ((robust_begun Eq).wp (silent_checkRateLimit _ _ _) h)
    (wp_checkRateLimit (fun _ => trivial) hlocks trivial))
  obtain ⟨h, -, hbucket⟩ := h
  rw [Call.wp_bind, Call.wp_onlyIf]
  refine ⟨fun _ => trivial, fun _ => ?_⟩
  rw [Call.wp_bind, Call.wp_select]
  intro db₁ hrely₁ hinv₁
  have h₁ := (robust_begun Eq).stable h hrely₁ hinv₁
  rw [Call.wp_bind, Call.wp_select]
  intro db₂ hrely₂ hinv₂
  have h₂ := (robust_begun Eq).stable h₁ hrely₂ hinv₂
  rw [Call.wp_bind, Call.wp_onlyIf]
  refine ⟨fun _ => trivial, fun hroom => ?_⟩
  have hmay : MayOpen ctx own held db₂ := by
    refine ⟨h₂, hbucket, ?_⟩
    have hplan : orgPlan ctx (view Db.apply db₁ own) = orgPlan ctx db₂ := by
      rw [orgPlan, orgPlan, (h.1.sameBooks db₁).organizations, ← hrely₂.organizations]
    have hcount : accountCount ctx (view Db.apply db₂ own) = accountCount ctx db₂ := by
      rw [accountCount, accountCount, (h.1.sameBooks db₂).accounts]
    rw [hplan, hcount] at hroom
    exact hroom
  rw [Call.wp_bind]
  refine Call.wp_mono (fun a own held db h => ?_) (wp_insertAccountAtOnce hmay)
  rw [Call.wp_bind]
  refine Call.wp_mono (fun _ own held db h => Tracks.mono h ?_) (wp_auditAtOnce h)
  rintro db db' ⟨between, ⟨_, rfl, hinsert⟩, haudit⟩
  rw [AtOnce.createAccount, bind_of_some hinsert, bind_of_some haudit]
  rfl

end

/-! ## Runs -/

section

variable {ι : Type} [DecidableEq ι]

/-- The calls, about to start. -/
def RpcCall.answerAll (calls : ι → RpcCall) (db : Db) :
    State ι Db Write LockKey PgError RpcAnswer :=
  State.initial db fun i => (calls i).answering

variable {calls : ι → RpcCall} {db : Db} {σ : State ι Db Write LockKey PgError RpcAnswer}
  {steps : List (State ι Db Write LockKey PgError RpcAnswer × ι ×
    State ι Db Write LockKey PgError RpcAnswer)}

omit [DecidableEq ι] in
/-- Every call commits as what it is for. -/
theorem RpcCall.commitsAs (c : RpcCall) (db : Db) :
    Call.wp Db.apply booking c.answering (CommitsAs Db.apply booking fun a db db' =>
      c.atOnce db.books = some (a, db'.books)) [] [] db := by
  have hbegun : Begun Eq [] [] db := ⟨by simp [Unbooked], tracks_start db⟩
  cases c with
  | createAccount ctx args =>
    rw [answering, Call.wp_bind]
    refine Call.wp_mono (fun a own held db h => ?_) (wp_openAtOnce hbegun)
    intro db' hrely _
    refine ⟨trivial, h.others db' hrely, ?_⟩
    exact (bind_of_some (h.step db' hrely)).trans rfl
  | processTransaction ctx args =>
    rw [answering, Call.wp_bind]
    refine Call.wp_mono (fun t own held db h => ?_) (wp_processAtOnce hbegun)
    intro db' hrely _
    refine ⟨trivial, h.others db' hrely, ?_⟩
    exact (bind_of_some (h.step db' hrely)).trans rfl

/-- The commits of a run, one after the other. -/
theorem inOrder_commits
    (h : Run (Step Db.apply) Always (RpcCall.answerAll calls db) steps σ) :
    InOrder (fun i a db db' => (calls i).atOnce db.books = some (a, db'.books)) db (commits steps)
      σ.committed :=
  Discipline.inOrder (R := booking) trivial (fun i => (calls i).commitsAs db) h

omit [DecidableEq ι] in
/-- What is done one after the other is done by the calls as one. -/
theorem mapM_of_inOrder {order : List (ι × RpcAnswer)} {db' : Db}
    (h : InOrder (fun i a db db' => (calls i).atOnce db.books = some (a, db'.books)) db order db') :
    (order.mapM fun p => (calls p.1).atOnce) db.books = some (order.map Prod.snd, db'.books) := by
  induction h with
  | start => rfl
  | next _ hspec ih =>
    rw [List.mapM_append, bind_of_some ih, List.mapM_cons, List.mapM_nil]
    simp only [bind_assoc, pure_bind]
    rw [bind_of_some hspec, List.map_append]
    rfl

/-- **The books are serializable**: the calls that have committed, one after the other in the order
of their commits, return the same rows and make the same books. -/
theorem serializable (h : Run (Step Db.apply) Always (RpcCall.answerAll calls db) steps σ) :
    ((commits steps).map Prod.fst).Nodup ∧
      (∀ i a, (i, a) ∈ commits steps ↔ σ.calls i = .committed a) ∧
      ((commits steps).mapM fun p => (calls p.1).atOnce) db.books =
        some ((commits steps).map Prod.snd, σ.committed.books) := by
  obtain ⟨hnodup, hmem⟩ := mem_commits_iff h
  exact ⟨hnodup, hmem, mapM_of_inOrder (inOrder_commits h)⟩

end

/-- Ten dollars from account `100` to account `200`, any number of times. -/
def RpcCall.tenDollars (n : ℕ) : RpcCall := .transfer (300 + 10 * n) 10 100 (some 200)

/-- The theorem at work: the second of these transfers, and then the first. -/
theorem serializable_tenDollars :
    let db := RpcCall.openings.foldl RpcCall.step Db.starter
    ∃ steps σ, Run (Step Db.apply) Always (RpcCall.answerAll RpcCall.tenDollars db) steps σ ∧
      ((commits steps).map Prod.fst).Nodup ∧
      (∀ i a, (i, a) ∈ commits steps ↔ σ.calls i = .committed a) ∧
      ((commits steps).mapM fun p => (RpcCall.tenDollars p.1).atOnce) db.books =
        some ((commits steps).map Prod.snd, σ.committed.books) ∧
      σ.committed.transactions.rows.length = 2 := by
  intro db
  have htwice : (serial Db.apply (fun n => (RpcCall.tenDollars n).answering) [1, 0] db).any
      (fun db' => db'.transactions.rows.length == 2) = true := by decide +kernel
  obtain ⟨db', hserial, htwo⟩ := (Option.any_eq_true _ _).1 htwice
  obtain ⟨σ, hreach, rfl⟩ := reach_of_serial (by decide) hserial
  obtain ⟨steps, hrun⟩ := hreach.exists_run
  obtain ⟨hnodup, hmem, hinOrder⟩ := serializable hrun
  exact ⟨steps, σ, hrun, hnodup, hmem, hinOrder, eq_of_beq htwo⟩

end EnterpriseSystem
