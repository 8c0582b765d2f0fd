import EnterpriseSystem.Database.Rules

/-!
# Balances under concurrency

Any number of calls of `create_account` and `process_transaction`, interleaved
statement by statement, never overdraw an account that is not a credit account.

* `IsSolvent` — what holds of every committed account.
* `solvency` — the discipline the calls keep to: an account whose row a call has
  locked stays as it is, and no account goes away.
* `IsBacked` — what a call knows about its own writes: each account it writes is
  solvent and locked.  It is enough for a commit (`IsBacked.committable`).
* `IsFunded` — what the locked check has established when it passes: from then
  on the source covers the amount.
* `balance_not_neg` — the result for every interleaving.
-/

namespace EnterpriseSystem

open Relational Concurrency

/-! ## The discipline -/

/-- An account that is not a credit account has a balance of at least zero. -/
def IsSolvent (a : Account) : Prop :=
  a.type ≠ .credit → Numeric.le (.finite 0) a.balance.1.toNumeric = true

instance : DecidablePred IsSolvent := fun _ => inferInstanceAs (Decidable (_ → _))

/-- The rules of the calls. -/
def solvency : Discipline Db LockKey PgError where
  Inv db := ∀ a ∈ db.accounts, IsSolvent a
  Rely held db db' :=
    (∀ id, accountLock id ∈ held → db'.accounts.get? id = db.accounts.get? id) ∧
      ∀ id, db.accounts.get? id ≠ none → db'.accounts.get? id ≠ none
  Allowed e := ∀ a balance, e ≠ insufficientBalance a balance
  refl _ _ := ⟨fun _ _ => rfl, fun _ h => h⟩
  trans h h' := ⟨fun id hid => (h'.1 id hid).trans (h.1 id hid), fun id hid => h'.2 id (h.2 id hid)⟩

theorem isSolvent_iff {a : Account} :
    IsSolvent a ↔ (a.type ≠ .credit → a.balance.1.toNumeric.lt (.finite 0) = false) := by
  simp [IsSolvent, Numeric.le]

theorem allowed_of_isSystem {e : PgError} (h : e.IsSystem) : solvency.Allowed e := by
  rintro a balance rfl
  exact h

theorem allowed_of_message {message : String} {args : List Value} {errcode : String}
    {detail : JsonObject} (h : message ≠ "Insufficient funds. Account % balance would be %") :
    solvency.Allowed (.raised message args errcode detail) := by
  intro a balance hc
  injection hc with hmessage
  exact h hmessage

/-! ## What a call writes -/

/-- Every account a call has written is solvent, and the call holds the lock of
its row. -/
def IsBacked (own : List Write) (held : List LockKey) : Prop :=
  ∀ a, .account a ∈ own → IsSolvent a ∧ accountLock a.id ∈ held

namespace IsBacked

variable {own : List Write} {held : List LockKey} {db : Db}

theorem nil : IsBacked [] [] := fun _ ha => nomatch ha

theorem append (h : IsBacked own held) {ws : List Write} (hws : ∀ w ∈ ws, w.NotAccount)
    (ks : List LockKey) : IsBacked (own ++ ws) (held ++ ks) := by
  intro a ha
  rcases List.mem_append.1 ha with ha | ha
  · exact ⟨(h a ha).1, List.mem_append_left _ (h a ha).2⟩
  · exact absurd rfl (hws _ ha a)

theorem account (h : IsBacked own held) {a : Account} (ha : IsSolvent a)
    (hlock : accountLock a.id ∈ held) : IsBacked (own ++ [.account a]) held := by
  intro b hb
  rcases List.mem_append.1 hb with hb | hb
  · exact h b hb
  · cases List.mem_singleton.1 hb
    exact ⟨ha, hlock⟩

/-- What a call sees is solvent, too. -/
theorem view (h : ∀ a, .account a ∈ own → IsSolvent a) (hinv : solvency.Inv db) :
    solvency.Inv (view Db.apply db own) := by
  induction own generalizing db with
  | nil => exact hinv
  | cons w ws ih =>
    refine ih (fun a ha => h a (List.mem_cons_of_mem _ ha)) ?_
    cases w with
    | account a =>
      intro b hb
      rcases Table.mem_put_iff.1 hb with rfl | ⟨hb, -⟩
      · exact h b (List.mem_cons_self ..)
      · exact hinv b hb
    | _ => exact hinv

/-- **A call whose writes are backed can commit.** -/
theorem committable (h : IsBacked own held) : Committable Db.apply solvency own held db := by
  intro db' _ hinv
  refine ⟨IsBacked.view (fun a ha => (h a ha).1) hinv, fun held' hdisjoint => ⟨?_, ?_⟩⟩
  · intro i hi
    refine view_get?_of_not_written fun a ha hid => ?_
    exact hdisjoint _ (h a ha).2 (hid ▸ hi)
  · exact fun i hi => view_get?_ne_none hi

end IsBacked

/-! ## Assertions of a call -/

/-- Nothing is known but that the writes are backed. -/
def Backed : Assertion Db Write LockKey := fun own held _ => IsBacked own held

/-- The source of the transfer is there. -/
def SourceExists (args : TransactionArgs) : Assertion Db Write LockKey := fun own held db =>
  IsBacked own held ∧ ∃ i, args.sourceAccount = some i ∧
    (view Db.apply db own).accounts.get? i ≠ none

/-- The source of the transfer is locked, and covers the amount unless it is a
credit account. -/
def IsFunded (args : TransactionArgs) : Assertion Db Write LockKey := fun own held db =>
  IsBacked own held ∧ ∃ i a, args.sourceAccount = some i ∧ accountLock i ∈ held ∧
    (view Db.apply db own).accounts.get? i = some a ∧
    (a.type ≠ .credit → ∀ x, args.amount = some x → a.balance.1.toNumeric.lt x = false)

theorem robust_backed : Robust solvency Write.NotAccount Backed where
  stable h _ _ := h
  append h hws := h.append hws _

theorem robust_sourceExists (args : TransactionArgs) :
    Robust solvency Write.NotAccount (SourceExists args) where
  stable := by
    rintro own held db db' ⟨hbacked, i, hi, hsome⟩ ⟨-, hpersist⟩ -
    exact ⟨hbacked, i, hi, view_get?_mono (hpersist i) hsome⟩
  append := by
    rintro own held db ws ks ⟨hbacked, i, hi, hsome⟩ hws
    refine ⟨hbacked.append hws ks, i, hi, ?_⟩
    rw [view_append, view_accounts hws]
    exact hsome

theorem robust_isFunded (args : TransactionArgs) :
    Robust solvency Write.NotAccount (IsFunded args) where
  stable := by
    rintro own held db db' ⟨hbacked, i, a, hi, hlock, hrow, hfunds⟩ ⟨hlocked, -⟩ -
    refine ⟨hbacked, i, a, hi, hlock, ?_, hfunds⟩
    rw [view_get?_congr (hlocked i hlock)]
    exact hrow
  append := by
    rintro own held db ws ks ⟨hbacked, i, a, hi, hlock, hrow, hfunds⟩ hws
    refine ⟨hbacked.append hws ks, i, a, hi, List.mem_append_left _ hlock, ?_, hfunds⟩
    rw [view_append, view_accounts hws]
    exact hrow

/-! ## The functions -/

theorem within_of_quiet {α : Type} {p : Rpc α} (hp : p.Quiet) :
    Call.Within Write.NotAccount solvency.Allowed p :=
  hp.mono (fun _ => Write.Quiet.notAccount) fun _ => allowed_of_isSystem

/-- The trigger does not raise on a balance that is not below zero. -/
theorem wp_validateBalance {A : Assertion Db Write LockKey}
    (hA : Robust solvency Write.NotAccount A) {ctx : Context} {id : Uuid} {old : Account} {balance : Money}
    (hsolvent : old.type ≠ .credit → balance.toNumeric.lt (.finite 0) = false) {own : List Write}
    {held : List LockKey} {db : Db} (h : A own held db) :
    Call.wp Db.apply solvency (validateBalance ctx id old balance) (fun _ => A) own held db := by
  rw [validateBalance, Call.wp_bind, Call.wp_onlyIf]
  constructor
  · rintro ⟨htype, hlt⟩
    rw [hsolvent htype] at hlt
    cases hlt
  · intro _
    exact hA.wp (within_of_quiet (Call.Within.onlyIf fun _ =>
      Call.Within.bind (quiet_writeAuditLog _ _ _ _ _ _ _) fun _ => Call.within_pure _)) h

/-- The lock of an account is held. -/
def HoldsLock (id : Uuid) : Assertion Db Write LockKey := fun own held _ =>
  IsBacked own held ∧ accountLock id ∈ held

theorem robust_holdsLock (id : Uuid) : Robust solvency Write.NotAccount (HoldsLock id) where
  stable h _ _ := h
  append h hws := ⟨h.1.append hws _, List.mem_append_left _ h.2⟩

/-- **An update of a balance.**  If the new balance is never below zero, except
on a credit account, the trigger does not raise and the writes stay backed. -/
theorem wp_updateBalance {ctx : Context} {site : ℕ} {id : Option Uuid} {f : Numeric → Numeric}
    {own : List Write} {held : List LockKey} {db : Db} (hbacked : IsBacked own held)
    (hsolvent : ∀ db', solvency.Rely held db db' → solvency.Inv db' →
      ∀ a, accountRow id (view Db.apply db' own) = some a → a.type ≠ .credit →
        (f a.balance.1.toNumeric).lt (.finite 0) = false) :
    Call.wp Db.apply solvency (updateBalance ctx site id f) (fun _ => Backed) own held db := by
  rw [updateBalance, Call.wp_bind, Call.wp_statement]
  intro db' hrely hinv
  have hbulk : ∀ {own held db}, IsBacked own held → Call.wp Db.apply solvency
      (detectBulkOperation ctx (ctx.uuid (site + 1)) "accounts" "UPDATE") (fun _ => Backed)
        own held db :=
    fun h => robust_backed.wp (within_of_quiet (quiet_detectBulkOperation _ _ _ _)) h
  cases hrow : accountRow id (view Db.apply db' own) with
  | none =>
    refine ⟨?_, fun e he => by cases he⟩
    rintro ws b hexec
    cases hexec
    rw [Call.wp_bind]
    exact Call.wp_mono (fun _ _ _ _ h => h) (hbulk (hbacked.append (by simp) _))
  | some a =>
    constructor
    · intro ws b hexec
      obtain ⟨stored, hstore, hexec⟩ := bind_eq_ok.1 hexec
      obtain ⟨balance, hbalance, hexec⟩ := bind_eq_ok.1 hexec
      cases hexec
      rw [notNull_ok] at hbalance
      subst hbalance
      obtain ⟨_, hq, hstore⟩ := storeMoney_ok.1 hstore
      cases hq
      have hbalance : a.type ≠ .credit → balance.toNumeric.lt (.finite 0) = false :=
        fun htype => Fixed.store_not_neg hstore (hsolvent db' hrely hinv a hrow htype)
      have hlock : HoldsLock a.id (own ++ [])
          (held ++ lockAccount id (view Db.apply db' own)) db' :=
        ⟨hbacked.append (by simp) _, List.mem_append_right _ (by simp [lockAccount, hrow])⟩
      rw [Call.wp_bind]
      refine Call.wp_mono (fun _ own held db h => ?_)
        (wp_validateBalance (robust_holdsLock a.id) hbalance hlock)
      rw [Call.wp_bind, Call.wp_evaluate]
      refine ⟨fun checked hchecked => ?_, fun e he => allowed_of_isSystem (isSystem_of_check he)⟩
      obtain rfl := check_ok.1 hchecked
      rw [Call.wp_bind, Call.wp_statement]
      intro db'' _ _
      refine ⟨?_, fun e he => by cases he⟩
      rintro ws b hexec
      cases hexec
      rw [Call.wp_bind]
      refine Call.wp_mono (fun _ _ _ _ h => h) (hbulk ?_)
      rw [List.append_nil]
      exact h.1.account (isSolvent_iff.2 hbalance) h.2
    · intro e he
      refine allowed_of_isSystem (isSystem_of_bind he (fun _ => isSystem_of_storeMoney) ?_)
      intro _ _ he
      exact isSystem_of_bind he (fun _ => isSystem_of_notNull) fun _ _ he => by cases he

/-- **A posting** that its account affords keeps the writes backed. -/
theorem wp_postEntry {ctx : Context} {site : ℕ} {args : TransactionArgs} {transactionId : Uuid}
    {accountId : Option Uuid} {entryType : EntryType} {amount : Numeric} {own : List Write}
    {held : List LockKey} {db : Db} (hbacked : IsBacked own held)
    (hsolvent : ∀ db', solvency.Rely held db db' → solvency.Inv db' →
      ∀ a, accountRow accountId (view Db.apply db' own) = some a → a.type ≠ .credit →
        (entryType.move a.balance.1.toNumeric amount).lt (.finite 0) = false) :
    Call.wp Db.apply solvency (postEntry ctx site args transactionId accountId entryType amount)
      (fun _ => Backed) own held db := by
  rw [postEntry, Call.wp_bind]
  refine Call.wp_mono (fun balance own held db h => ?_) (wp_updateBalance hbacked hsolvent)
  exact robust_backed.wp ((within_insertLedgerEntry fun _ _ _ h => by cases h).mono
    (fun _ h => h) fun _ => allowed_of_isSystem) h

/-- **The checks in front of a transfer** end with the source locked and
sufficient. -/
theorem wp_checkTransfer {args : TransactionArgs} {own : List Write} {held : List LockKey} {db : Db}
    (hbacked : IsBacked own held) :
    Call.wp Db.apply solvency (checkTransfer args) (fun _ => IsFunded args) own held db := by
  rw [checkTransfer, Call.wp_bind, Call.wp_select]
  intro db₁ _ _
  rw [Call.wp_bind, Call.wp_onlyIf]
  refine ⟨fun _ => allowed_of_message (by decide), fun hsource => ?_⟩
  have hexists : SourceExists args own held db₁ := by
    rw [Option.isNone_iff_eq_none, ← ne_eq, Option.ne_none_iff_exists'] at hsource
    obtain ⟨a, ha⟩ := hsource
    obtain ⟨i, hi, hrow⟩ := Option.bind_eq_some_iff.1 (activeAccount_eq_some.1 ha).1
    exact ⟨hbacked, i, hi, by rw [hrow]; exact Option.some_ne_none a⟩
  rw [Call.wp_bind, Call.wp_select]
  intro db₂ hrely₂ hinv₂
  rw [Call.wp_bind, Call.wp_onlyIf]
  refine ⟨fun _ => allowed_of_message (by decide), fun _ => ?_⟩
  rw [Call.wp_bind, Call.wp_statement]
  intro db₃ hrely₃ hinv₃
  obtain ⟨-, i, hi, hsome⟩ := (robust_sourceExists args).stable
    ((robust_sourceExists args).stable hexists hrely₂ hinv₂) hrely₃ hinv₃
  obtain ⟨a, ha⟩ := Option.ne_none_iff_exists'.1 hsome
  have hrow : accountRow args.sourceAccount (view Db.apply db₃ own) = some a := by
    rw [hi]
    exact ha
  refine ⟨?_, fun e he => by cases he⟩
  rintro ws locked hexec
  cases hexec
  rw [Call.wp_onlyIf, hrow]
  refine ⟨fun _ => allowed_of_message (by decide), fun hfunds => ?_⟩
  have hkey : a.id = i := Table.key_of_get? ha
  refine ⟨hbacked.append (by simp) _, i, a, hi, ?_, ?_, ?_⟩
  · exact List.mem_append_right _ (by simp [lockAccount, hrow, hkey])
  · rw [List.append_nil]
    exact ha
  · intro htype x hx
    rw [hx] at hfunds
    simpa [sqlLt, htype] using hfunds

/-- **The writes of a transfer** on a source that covers it. -/
theorem wp_postTransfer {ctx : Context} {args : TransactionArgs} {own : List Write}
    {held : List LockKey} {db : Db} (hfunded : IsFunded args own held db) :
    Call.wp Db.apply solvency (postTransfer ctx args) (fun _ => Backed) own held db := by
  rw [postTransfer, Call.wp_bind]
  refine Call.wp_mono (fun t own held db h => ?_) (wp_insertTransaction
    (fun _ => allowed_of_isSystem) (fun _ => Write.Quiet.notAccount) (by simp [Write.NotAccount])
    (robust_isFunded args) hfunded)
  obtain ⟨hfunded, ht⟩ := h
  rw [Call.wp_bind, Call.wp_evaluate]
  refine ⟨fun amount hamount => ?_, fun e he => allowed_of_isSystem (isSystem_of_notNull he)⟩
  rw [notNull_ok] at hamount
  have hpositive : amount.lt (.finite 0) = false := by
    obtain ⟨x, hx, hm⟩ := ht.amount
    cases hamount.symm.trans hx
    exact Fixed.not_neg_of_store_pos hm t.amount.2
  rw [Call.wp_bind]
  refine Call.wp_mono (fun _ own held db h => ?_) (wp_postEntry hfunded.1 ?_)
  · -- the destination only gains
    rw [Call.wp_bind]
    refine Call.wp_mono (Q := fun _ => Backed) (fun _ own held db h => ?_) ?_
    · rw [Call.wp_bind]
      exact Call.wp_mono (fun _ _ _ _ h => h)
        (robust_backed.wp (within_of_quiet (quiet_writeAuditLog _ _ _ _ _ _ _)) h)
    · rw [Call.wp_onlyIf]
      refine ⟨fun _ => wp_postEntry h fun db' _ hinv a ha htype => ?_, fun _ => h⟩
      obtain ⟨i, -, hrow⟩ := Option.bind_eq_some_iff.1 ha
      have hsolvent := IsBacked.view (fun a ha => (h a ha).1) hinv a (Table.mem_of_get? hrow)
      exact Numeric.add_not_neg (isSolvent_iff.1 hsolvent htype) hpositive
  · -- the source covers the amount, whatever the others have done since the check
    intro db' hrely hinv a ha htype
    obtain ⟨-, i, a', hi, -, hrow, hfunds⟩ := (robust_isFunded args).stable hfunded hrely hinv
    rw [hi] at ha
    cases hrow.symm.trans ha
    exact Numeric.sub_not_neg (hfunds htype amount hamount)

theorem wp_processTransaction (ctx : Context) (args : TransactionArgs) {own : List Write}
    {held : List LockKey} {db : Db} (hbacked : IsBacked own held) :
    Call.wp Db.apply solvency (processTransaction ctx args) (fun _ => Backed) own held db := by
  rw [processTransaction, Call.wp_bind]
  refine Call.wp_mono (fun allowed own held db h => ?_)
    (robust_backed.wp (within_of_quiet (quiet_checkRateLimit _ _ _ _)) hbacked)
  rw [Call.wp_bind, Call.wp_onlyIf]
  refine ⟨fun _ => allowed_of_message (by decide), fun _ => ?_⟩
  rw [Call.wp_bind, Call.wp_select]
  intro db' hrely hinv
  split
  · exact h
  · rw [Call.wp_bind]
    exact Call.wp_mono (fun _ _ _ _ h => wp_postTransfer h) (wp_checkTransfer h)

/-- A new account is locked by its insertion, and has a balance of zero. -/
theorem wp_insertAccount (ctx : Context) (args : AccountArgs) {own : List Write}
    {held : List LockKey} {db : Db} (hbacked : IsBacked own held) :
    Call.wp Db.apply solvency (insertAccount ctx args) (fun _ => Backed) own held db := by
  rw [insertAccount, Call.wp_bind, Call.wp_evaluate]
  refine ⟨fun uid _ => ?_, fun e he => allowed_of_isSystem (isSystem_of_authUid he)⟩
  rw [Call.wp_bind, Call.wp_statement]
  intro db' _ _
  constructor
  · intro ws a h
    obtain ⟨a, hnew, h⟩ := bind_eq_ok.1 h
    repeat' split at h
    all_goals cases h
    have ha := newAccount_ok hnew
    rw [Call.wp_bind]
    refine Call.wp_mono (fun _ _ _ _ h => h) (robust_backed.wp
      (within_of_quiet (quiet_detectBulkOperation _ _ _ _)) (IsBacked.account ?_ ?_ ?_))
    · intro b hb
      exact ⟨(hbacked b hb).1, List.mem_append_left _ (hbacked b hb).2⟩
    · intro _
      simp [ha.balance, Fixed.zero]
    · rw [ha.id]
      exact List.mem_append_right _ (List.mem_singleton_self _)
  · intro e h
    refine allowed_of_isSystem (isSystem_of_bind h (fun _ => isSystem_of_newAccount) ?_)
    intro _ _ h
    repeat' split at h
    all_goals cases h <;> trivial

theorem wp_createAccount (ctx : Context) (args : AccountArgs) {own : List Write}
    {held : List LockKey} {db : Db} (hbacked : IsBacked own held) :
    Call.wp Db.apply solvency (createAccount ctx args) (fun _ => Backed) own held db := by
  rw [createAccount, Call.wp_bind]
  refine Call.wp_mono (fun allowed own held db h => ?_)
    (robust_backed.wp (within_of_quiet (quiet_checkRateLimit _ _ _ _)) hbacked)
  rw [Call.wp_bind, Call.wp_onlyIf]
  refine ⟨fun _ => allowed_of_message (by decide), fun _ => ?_⟩
  rw [Call.wp_bind, Call.wp_select]
  intro db₁ _ _
  rw [Call.wp_bind, Call.wp_select]
  intro db₂ _ _
  rw [Call.wp_bind, Call.wp_onlyIf]
  refine ⟨fun _ => allowed_of_message (by decide), fun _ => ?_⟩
  rw [Call.wp_bind]
  refine Call.wp_mono (fun a own held db h => ?_) (wp_insertAccount ctx args h)
  rw [Call.wp_bind]
  exact Call.wp_mono (fun _ _ _ _ h => h)
    (robust_backed.wp (within_of_quiet (quiet_writeAuditLog _ _ _ _ _ _ _)) h)

end EnterpriseSystem
