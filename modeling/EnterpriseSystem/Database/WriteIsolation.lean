import EnterpriseSystem.Database.Idempotency
import EnterpriseSystem.Database.References
import EnterpriseSystem.Database.TenantRuns

/-!
# What a transfer reveals of other tenants

`process_transaction` looks an idempotency key up within the organization, and
inserts it into a column that is unique over all of them.  A key another
organization has used makes the insertion fail, and that is all a transfer
reveals, apart from what the logs are chained to and count.

* `ReachesInsertion` — the checks in front of the insertion pass.
* `Write.seen` — what a new row is compared by: a row of the audit log without its
  hashes, which cover identifiers and times and the rows of others; an alert about
  the caller not at all.
* `SameLog` — the audit log looks the same to a call; then everything is compared.
* `sameOutcome_iff` — the outcomes agree exactly when the key is used in both
  states or in neither, unless the call ends before it gets there.
-/

namespace EnterpriseSystem

open Relational Concurrency

/-! ## The checks in front of the transfer -/

section

variable {ctx : Context} {o : Uuid} {db db' : Db} {see : Write → Option Write}
  {own own' : List Write}

/-- **The rate limit** looks at the bucket of the organization. -/
theorem related_checkRateLimit (hsame : db.SameTenant o db') (hsee : Conceals ctx db db' see)
    (h : Alike ctx o db db' see [] 0 own own') {maxTokens : Int4} (hmax : 1 ≤ maxTokens.1)
    (refillRate : Int4) :
    Call.Related Db.apply db db'
      (checkRateLimit ctx (some ("txn:" ++ formatUuid (some o))) (some maxTokens) (some refillRate))
      (checkRateLimit ctx (some ("txn:" ++ formatUuid (some o))) (some maxTokens) (some refillRate))
      (Meet ctx o db db' see [] 0) own own' := by
  have happend : ∀ {own own' : List Write} (r : RateLimit),
      Alike ctx o db db' see [] 0 own own' →
      Alike ctx o db db' see [] 0 (own ++ [.rateLimit r]) (own' ++ [.rateLimit r]) :=
    fun r h => h.append rfl (fun a ha => by cases ha) (h.fresh.apply_rateLimit r)
      (h.fresh'.apply_rateLimit r)
  have hrow := (h.sameTenant hsame hsee).rateLimit
  rw [checkRateLimit]
  refine Call.related_bind (R := Meet ctx o db db' see [] 0) (Call.related_statement ?_ ?_) ?_
  · simp only [spendable, Option.bind_some, hrow]
  · intro ws tokens hexec
    split at hexec
    · cases hexec
      exact ⟨rfl, by simpa using h⟩
    · obtain ⟨r', -, hexec⟩ := bind_eq_ok.1 hexec
      cases hexec
      exact ⟨rfl, happend r' h⟩
  rintro tokens _ ws ws' - - ⟨rfl, h⟩
  cases tokens with
  | some t => exact Call.related_pure ⟨rfl, h⟩
  | none =>
    have hrow := (h.sameTenant hsame hsee).rateLimit
    obtain ⟨new, hnew, hkey, -⟩ :=
      newRateLimit_ok ctx.now ("txn:" ++ formatUuid (some o)) refillRate hmax
    refine Call.related_bind (R := Meet ctx o db db' see [] 0) (Call.related_statement ?_ ?_) ?_
    · simp only [hnew, bind, Except.bind, hkey, hrow]
    · intro ws _ hexec
      obtain ⟨new, -, hexec⟩ := bind_eq_ok.1 hexec
      split at hexec
      · cases hexec
        exact ⟨rfl, happend new h⟩
      · obtain ⟨r', -, hexec⟩ := bind_eq_ok.1 hexec
        cases hexec
        exact ⟨rfl, happend r' h⟩
    rintro _ _ ws ws' - - ⟨-, h⟩
    have hrow := (h.sameTenant hsame hsee).rateLimit
    refine Call.related_select_bind (Call.related_pure ⟨?_, h⟩)
    simp only [Option.bind_some, hrow]

/-- **The checks** look at the accounts of the organization. -/
theorem related_checkTransfer {args : TransactionArgs} (horg : args.orgId = some o)
    (hsame : (view Db.apply db own).SameTenant o (view Db.apply db' own')) :
    Call.Related Db.apply db db' (checkTransfer args) (checkTransfer args)
      (fun _ _ ws ws' => ws = own ∧ ws' = own') own own' := by
  rw [checkTransfer, horg]
  refine Call.related_select_bind ?_
  rw [← activeAccount_eq hsame]
  refine Call.related_bind (R := fun _ _ ws ws' => ws = own ∧ ws' = own' ∧
      accountRow args.sourceAccount (view Db.apply db own) =
        accountRow args.sourceAccount (view Db.apply db' own'))
    (Call.related_onlyIf (fun _ => Call.related_throw _ _) fun hsource => ⟨rfl, rfl, ?_⟩) ?_
  · rw [Option.isNone_iff_eq_none, ← ne_eq, Option.ne_none_iff_exists'] at hsource
    obtain ⟨a, ha⟩ := hsource
    obtain ⟨hrow, horg, -⟩ := activeAccount_eq_some.1 ha
    have hown : OwnAccount o args.sourceAccount (view Db.apply db own) :=
      Or.inr ⟨a, hrow, (Option.some.inj horg).symm⟩
    exact hown.accountRow_eq hsame
  rintro _ _ ws ws' - - ⟨rfl, rfl, hrow⟩
  refine Call.related_select_bind ?_
  rw [← activeAccount_eq hsame]
  refine Call.related_bind (R := fun _ _ w w' => w = ws ∧ w' = ws')
    (Call.related_onlyIf (fun _ => Call.related_throw _ _) fun _ => ⟨rfl, rfl⟩) ?_
  rintro _ _ ws ws' - - ⟨rfl, rfl⟩
  refine Call.related_bind (R := fun locked locked' w w' =>
    locked = locked' ∧ w = ws ∧ w' = ws') (Call.related_statement (by simp only [hrow]) ?_) ?_
  · intro ws locked hexec
    cases hexec
    exact ⟨rfl, List.append_nil _, List.append_nil _⟩
  rintro locked _ ws ws' - - ⟨rfl, rfl, rfl⟩
  exact Call.related_onlyIf (fun _ => Call.related_throw _ _) fun _ => ⟨rfl, rfl⟩

end

/-- The checks in front of the insertion pass: the rate limit, the lookup of the
key, the accounts and the columns of the row. -/
structure ReachesInsertion (ctx : Context) (args : TransactionArgs) (db : Db) : Prop where
  limit : Admits ctx.now (db.rateLimits.get? ("txn:" ++ formatUuid (authOrgId ctx)))
  notReplayed : ∀ t, existingTransaction args db = some t → ¬ t.IsNotNull
  covered : ∃ source, IsCovered args db source
  row : ∃ uid t, authUid ctx = .ok uid ∧ newTransaction ctx uid (ctx.uuid 0) args = .ok t

/-- No two transactions have one key. -/
def KeysUnique (db : Db) : Prop :=
  ∀ t ∈ db.transactions, ∀ t' ∈ db.transactions, ∀ k, t.idempotencyKey = some k →
    t'.idempotencyKey = some k → t = t'

/-- The lookup of a key finds what the organization has under it. -/
theorem existingTransaction_eq {args : TransactionArgs} {o : Uuid} {db db' : Db}
    (horg : args.orgId = some o) (hsame : db.SameTenant o db') (hunique : KeysUnique db)
    (hunique' : KeysUnique db') : existingTransaction args db = existingTransaction args db' := by
  have key : ∀ {db db' : Db}, db.SameTenant o db' → KeysUnique db' → ∀ t,
      existingTransaction args db = some t → existingTransaction args db' = some t := by
    intro db db' hsame hunique' t ht
    obtain ⟨k, hk, ht⟩ := Option.bind_eq_some_iff.1 ht
    obtain ⟨o', ho', ht⟩ := Option.bind_eq_some_iff.1 ht
    cases horg.symm.trans ho'
    have hmatch := List.find?_some ht
    rw [decide_eq_true_eq] at hmatch
    have hmem' := (hsame.transactions t hmatch.2).1 (List.mem_of_find?_eq_some ht)
    refine Option.bind_eq_some_iff.2 ⟨k, hk, Option.bind_eq_some_iff.2 ⟨o, horg, ?_⟩⟩
    obtain ⟨t', ht'⟩ : ∃ t', db'.transactions.rows.find?
        (fun t => decide (t.idempotencyKey = some k ∧ t.orgId = o)) = some t' := by
      refine Option.isSome_iff_exists.1 (List.find?_isSome.2 ⟨t, hmem', ?_⟩)
      exact decide_eq_true hmatch
    have hmatch' := List.find?_some ht'
    rw [decide_eq_true_eq] at hmatch'
    rw [ht', hunique' t' (List.mem_of_find?_eq_some ht') t hmem' k hmatch'.1 hmatch.1]
  exact Option.ext fun t => ⟨key hsame hunique' t, key hsame.symm hunique t⟩

/-- Whether a call gets to its insertion is decided within the organization. -/
theorem ReachesInsertion.congr {ctx : Context} {args : TransactionArgs} {o : Uuid} {db db' : Db}
    (h : ReachesInsertion ctx args db) (hclaim : authOrgId ctx = some o)
    (horg : args.orgId = some o) (hsame : db.SameTenant o db') (hunique : KeysUnique db)
    (hunique' : KeysUnique db') : ReachesInsertion ctx args db' where
  limit := by
    rw [hclaim, ← hsame.rateLimit, ← hclaim]
    exact h.limit
  notReplayed := by
    rw [← existingTransaction_eq horg hsame hunique hunique']
    exact h.notReplayed
  covered := by
    obtain ⟨source, hsource, hdest, hfunds⟩ := h.covered
    rw [horg, activeAccount_eq hsame, ← horg] at hsource
    rw [horg, activeAccount_eq hsame, ← horg] at hdest
    exact ⟨source, hsource, hdest, hfunds⟩
  row := h.row

/-- A call the rate limit has allowed to go on was admitted. -/
theorem admits_of_allowed {ctx : Context} {db db' : Db} {key : String} {maxTokens refillRate : Int4}
    {allowed : Cond} (hmax : 1 ≤ maxTokens.1)
    (h : (checkRateLimit ctx (some key) (some maxTokens) (some refillRate)).exec db =
      .ok (allowed, db')) (hallowed : ¬ allowed.not.Holds) :
    Admits ctx.now (db.rateLimits.get? key) := by
  rw [execute_checkRateLimit ctx db hmax] at h
  split at h
  · rename_i r hr
    cases h
    rw [Cond.holds_not, Option.some.injEq, decide_eq_false_iff_not, not_not] at hallowed
    exact (admits_iff maxTokens refillRate ctx db hmax).2 ⟨r, hr, hallowed⟩
  · cases h

/-- **A call of `process_transaction`** on two states with the same rows of its
organization. -/
theorem related_processTransaction {ctx : Context} {args : TransactionArgs} {o : Uuid}
    {db db' : Db} {see : Write → Option Write} (hclaim : authOrgId ctx = some o)
    (horg : args.orgId = some o) (hsame : db.SameTenant o db') (hsee : Conceals ctx db db' see)
    (hunique : KeysUnique db) (hunique' : KeysUnique db') (hground : Grounded ctx.server db)
    (hground' : Grounded ctx.server db') (hfresh : ctx.Fresh 0 db) (hfresh' : ctx.Fresh 0 db')
    (hkey : ReachesInsertion ctx args db →
      keyTaken args.idempotencyKey db = keyTaken args.idempotencyKey db') :
    Call.Related Db.apply db db' (processTransaction ctx args) (processTransaction ctx args)
      (fun t t' ws ws' => t = t' ∧ ws.filterMap see = ws'.filterMap see) [] [] := by
  have hbooks : ∀ {db : Db} {ws : List Write} {allowed : Cond}, outcomeFrom Db.apply db
      (checkRateLimit ctx (some ("txn:" ++ formatUuid (some o))) (some ⟨50, by decide⟩)
        (some ⟨10, by decide⟩)) [] = .ok (allowed, ws) → db.SameBooks (view Db.apply db ws) := by
    intro db ws allowed hrun
    have hexec : (checkRateLimit ctx (some ("txn:" ++ formatUuid (some o))) (some ⟨50, by decide⟩)
      (some ⟨10, by decide⟩)).exec db = _ := execute_of_outcomeFrom Db.apply hrun
    exact .of_quiet (quiet_checkRateLimit _ _ _ _) hexec
  have hstart : Alike ctx o db db' see [] 0 [] [] := ⟨rfl, hfresh, hfresh', by simp⟩
  rw [processTransaction, hclaim]
  refine Call.related_bind
    (related_checkRateLimit hsame hsee hstart (by decide) _) ?_
  rintro allowed _ ws ws' hrun hrun' ⟨rfl, h⟩
  have hview := h.sameTenant hsame hsee
  have hsameBooks := hbooks hrun
  have hsameBooks' := hbooks hrun'
  refine Call.related_bind (R := fun _ _ w w' => w = ws ∧ w' = ws' ∧ ¬ allowed.not.Holds)
    (Call.related_onlyIf (fun _ => Call.related_throw _ _) fun hc => ⟨rfl, rfl, hc⟩) ?_
  rintro _ _ ws ws' - - ⟨rfl, rfl, hallowed⟩
  refine Call.related_select_bind ?_
  have hexisting : ∀ {db db₁ : Db}, db.SameBooks db₁ →
      existingTransaction args db₁ = existingTransaction args db := by
    intro db db₁ hdb
    simp only [existingTransaction, hdb.transactions]
  rw [hexisting hsameBooks, hexisting hsameBooks',
    ← existingTransaction_eq horg hsame hunique hunique']
  cases hreplay : (existingTransaction args db).filter fun t => decide t.IsNotNull with
  | some t => exact Call.related_pure ⟨rfl, h.seen⟩
  | none =>
    refine Call.related_bind (related_checkTransfer horg hview) ?_
    rintro _ _ ws ws' hcheck - ⟨rfl, rfl⟩
    have hexec : (checkTransfer args).exec (view Db.apply db ws) = _ :=
      execute_of_outcomeFrom Db.apply hcheck
    obtain ⟨-, source, hcovered⟩ := checkTransfer_ok hexec
    have hsource : ∀ id, id = args.sourceAccount ∨ id = args.destAccount →
        OwnAccount o id (view Db.apply db ws) := by
      intro id hid
      refine (hcovered.account hid).imp (fun h => h) ?_
      rintro ⟨a, ha, haorg⟩
      exact ⟨a, ha, Option.some.inj (haorg.symm.trans horg)⟩
    have halike : Alike ctx o db db' see [args.sourceAccount, args.destAccount] 0 ws ws' :=
      { h with owned := by simpa using ⟨hsource _ (Or.inl rfl), hsource _ (Or.inr rfl)⟩ }
    -- the source witnesses that the organization is there
    obtain ⟨hrow, hclaimed, -⟩ := activeAccount_eq_some.1 hcovered.sourceActive
    have hsourceOrg : source.orgId = o := Option.some.inj (hclaimed.symm.trans horg)
    obtain ⟨i, -, hget⟩ := Option.bind_eq_some_iff.1 hrow
    rw [hsameBooks.accounts] at hget
    have hmem := Table.mem_of_get? hget
    obtain ⟨hfound, hlogged⟩ := hground source hmem
    obtain ⟨hfound', -⟩ := hground' source ((hsame.accounts source hsourceOrg).1 hmem)
    rw [hsourceOrg] at hfound hfound'
    have htaken : ∀ {db db₁ : Db}, db.SameBooks db₁ →
        keyTaken args.idempotencyKey db₁ = keyTaken args.idempotencyKey db := by
      intro db db₁ hdb
      simp only [keyTaken, hdb.transactions]
    refine Call.related_mono (related_postTransfer hlogged hsee hsame horg hfound hfound' halike
      (by simp) (by simp) ?_) fun _ _ _ _ hm => ⟨hm.1, hm.2.seen⟩
    intro uid t huid hnew
    rw [htaken hsameBooks, htaken hsameBooks']
    refine hkey ⟨?_, ?_, ⟨source, hcovered.congr hsameBooks.accounts.symm⟩, uid, t, huid, hnew⟩
    · rw [hclaim]
      exact admits_of_allowed (by decide) (execute_of_outcomeFrom Db.apply hrun) hallowed
    · intro t ht hnull
      rw [ht, Option.filter_some, if_pos (decide_eq_true hnull)] at hreplay
      cases hreplay

/-! ## What is compared -/

/-- A new row as it is compared: a row of the audit log without its hashes, and an
alert not at all. -/
def Write.seen : Write → Option Write
  | .auditEntry e => some (.auditEntry { e with rowHash := "", prevHash := none })
  | .securityEvent _ => none
  | w => some w

/-- The call ends in the same way: with one error, or with one answer and new rows
that are the same as far as they are compared. -/
def SameOutcome (ctx : Context) (args : TransactionArgs) (db db' : Db) : Prop :=
  ((outcome Db.apply db (processTransaction ctx args)).map fun r => (r.1, r.2.filterMap Write.seen)) =
    (outcome Db.apply db' (processTransaction ctx args)).map fun r =>
      (r.1, r.2.filterMap Write.seen)

theorem conceals_seen (ctx : Context) (db db' : Db) : Conceals ctx db db' Write.seen where
  books w hw := by
    cases w with
    | auditEntry | securityEvent => exact absurd trivial hw
    | organizationMember | account | transaction | ledgerEntry | rateLimit => rfl
  logs w hw w' hw' := by
    cases w with
    | auditEntry e =>
      cases hw'
      trivial
    | securityEvent e => cases hw'
    | organizationMember | account | transaction | ledgerEntry | rateLimit => exact hw.elim
  audit _ _ _ _ _ _ _ _ _ _ := by simp only [Write.seen, newAuditEntry]
  alerts _ _ _ := Or.inl fun _ => rfl

/-- The audit log looks the same to a call, whatever it has written: the row it is
chained to, and how many rows are the caller's. -/
def SameLog (ctx : Context) (db db' : Db) : Prop :=
  ∀ own : List Write,
    latestHash ctx (view Db.apply db own) = latestHash ctx (view Db.apply db' own) ∧
      ∀ uid tableName, recentOperations ctx uid tableName (view Db.apply db own) =
        recentOperations ctx uid tableName (view Db.apply db' own)

theorem SameLog.conceals {ctx : Context} {db db' : Db} (h : SameLog ctx db db') :
    Conceals ctx db db' some where
  books _ _ := rfl
  logs w hw w' hw' := by
    cases hw'
    exact hw
  audit own own' hown uid id action tableName recordId oldData newData := by
    rw [List.filterMap_some, List.filterMap_some] at hown
    rw [hown, (h own').1]
  alerts own own' hown := by
    rw [List.filterMap_some, List.filterMap_some] at hown
    rw [hown]
    exact Or.inr (h own').2

/-! ## A key that is taken -/

/-- The error of an insertion whose key is taken. -/
def keyViolation : PgError := .uniqueViolation "transactions_idempotency_key_key"

section

variable {ctx : Context}

/-- Only the insertion of a transaction raises it. -/
theorem authUid_ne {e : PgError} (h : authUid ctx = .error e) : e ≠ keyViolation := by
  rintro rfl
  unfold authUid at h
  split at h <;> cases h

theorem resolveAuthUid_ne {e : PgError} (h : resolveAuthUid ctx = .error e) : e ≠ keyViolation := by
  unfold resolveAuthUid at h
  split at h
  · exact authUid_ne h
  · cases h
    exact nofun

theorem writeAuditLog_ne (id : Uuid) (action : AuditAction) (tableName : String)
    (recordId : Option Uuid) (oldData newData : Option JsonObject) :
    Call.Within (fun _ => True) (· ≠ keyViolation)
      (writeAuditLog ctx id action tableName recordId oldData newData) := by
  refine Call.Within.bind (Call.within_select _) fun _ =>
    Call.Within.bind (Call.within_evaluate fun _ => resolveAuthUid_ne) fun _ =>
    Call.within_statement (fun _ _ _ _ _ _ => trivial) fun db e h => ?_
  split at h
  · cases h
    decide
  · cases h

theorem detectBulkOperation_ne (id : Uuid) (tableName op : String) :
    Call.Within (fun _ => True) (· ≠ keyViolation) (detectBulkOperation ctx id tableName op) := by
  refine Call.Within.bind (Call.within_evaluate fun _ => authUid_ne) fun _ =>
    Call.Within.bind (Call.within_select _) fun _ => Call.Within.onlyIf fun _ =>
    Call.Within.bind (Call.Within.bind (Call.within_evaluate fun _ => resolveAuthUid_ne) fun _ =>
      Call.within_statement (fun _ _ _ _ _ _ => trivial) fun db e h => ?_) fun _ =>
    Call.within_pure _
  split at h
  · cases h
    decide
  · cases h

theorem notNull_ne {α : Type} {table column : String} {x : Option α} {e : PgError}
    (h : notNull table column x = .error e) : e ≠ keyViolation := by
  rintro rfl
  cases x <;> cases h

theorem storeMoney_ne {x : Option Numeric} {e : PgError} (h : storeMoney x = .error e) :
    e ≠ keyViolation := by
  rintro rfl
  unfold storeMoney at h
  repeat' split at h
  all_goals cases h

theorem check_ne {α : Type} {c : String} {P : α → Prop} [DecidablePred P] {a : α} {e : PgError}
    (h : check c P a = .error e) : e ≠ keyViolation := by
  rintro rfl
  unfold check at h
  split at h <;> cases h

theorem updateBalance_ne (site : ℕ) (id : Option Uuid) (f : Numeric → Numeric) :
    Call.Within (fun _ => True) (· ≠ keyViolation) (updateBalance ctx site id f) := by
  refine Call.Within.bind (Call.within_statement (fun _ _ _ _ _ _ => trivial) ?_) fun row => ?_
  · intro db e h
    split at h
    · cases h
    · refine error_of_bind (B := (· ≠ keyViolation)) h (fun _ => storeMoney_ne) fun _ _ h => ?_
      exact error_of_bind (B := (· ≠ keyViolation)) h (fun _ => notNull_ne) fun _ _ h => nomatch h
  · rcases row with _ | ⟨old, balance⟩
    · exact Call.Within.bind (detectBulkOperation_ne _ _ _) fun _ => Call.within_pure _
    · have hraised : insufficientBalance old balance ≠ keyViolation := nofun
      refine Call.Within.bind (Call.Within.bind (Call.Within.onlyIf fun _ =>
        Call.within_throw hraised) fun _ => Call.Within.onlyIf fun _ =>
          Call.Within.bind (writeAuditLog_ne _ _ _ _ _ _) fun _ => Call.within_pure _) fun _ =>
        Call.Within.bind (Call.within_evaluate fun _ => check_ne) fun _ => Call.Within.bind ?_
          fun _ => Call.Within.bind (detectBulkOperation_ne _ _ _) fun _ => Call.within_pure _
      exact Call.within_statement (fun _ _ _ _ _ _ => trivial) fun _ _ h => nomatch h

theorem newLedgerEntry_ne {uid id : Uuid} {args : TransactionArgs} {transactionId : Uuid}
    {accountId : Option Uuid} {entryType : EntryType} {balance : Option Money} {e : PgError}
    (h : newLedgerEntry ctx uid id args transactionId accountId entryType balance = .error e) :
    e ≠ keyViolation := by
  refine error_of_bind (B := (· ≠ keyViolation)) h (fun _ => storeMoney_ne) fun _ _ h => ?_
  refine error_of_bind (B := (· ≠ keyViolation)) h (fun _ => notNull_ne) fun _ _ h => ?_
  refine error_of_bind (B := (· ≠ keyViolation)) h (fun _ => notNull_ne) fun _ _ h => ?_
  refine error_of_bind (B := (· ≠ keyViolation)) h (fun _ => notNull_ne) fun _ _ h => ?_
  refine error_of_bind (B := (· ≠ keyViolation)) h (fun _ => notNull_ne) fun _ _ h => ?_
  exact error_of_bind (B := (· ≠ keyViolation)) h (fun _ => check_ne) fun _ _ h => nomatch h

theorem insertLedgerEntry_ne (id : Uuid) (args : TransactionArgs) (transactionId : Uuid)
    (accountId : Option Uuid) (entryType : EntryType) (balance : Option Money) :
    Call.Within (fun _ => True) (· ≠ keyViolation)
      (insertLedgerEntry ctx id args transactionId accountId entryType balance) := by
  refine Call.Within.bind (Call.within_evaluate fun _ => authUid_ne) fun uid =>
    Call.within_statement (fun _ _ _ _ _ _ => trivial) fun db e h => ?_
  refine error_of_bind (B := (· ≠ keyViolation)) h (fun _ => newLedgerEntry_ne) fun _ _ h => ?_
  repeat' split at h
  all_goals cases h
  · decide
  · rintro ⟨⟩
  · rintro ⟨⟩

/-- What follows the insertion of a transaction. -/
theorem postEntry_ne (site : ℕ) (args : TransactionArgs) (transactionId : Uuid)
    (accountId : Option Uuid) (entryType : EntryType) (amount : Numeric) :
    Call.Within (fun _ => True) (· ≠ keyViolation)
      (postEntry ctx site args transactionId accountId entryType amount) :=
  Call.Within.bind (updateBalance_ne _ _ _) fun _ => insertLedgerEntry_ne _ _ _ _ _ _

variable {args : TransactionArgs} {db : Db}

/-- **The insertion** raises it when the key is taken, and then only. -/
theorem insertTransaction_error_iff {uid : Uuid} {t : Transaction} (huid : authUid ctx = .ok uid)
    (hnew : newTransaction ctx uid (ctx.uuid 0) args = .ok t)
    (hunused : db.transactions.get? (ctx.uuid 0) = none) :
    (insertTransaction ctx args).exec db = .error keyViolation ↔
      keyTaken args.idempotencyKey db = true := by
  have hrow := newTransaction_ok hnew
  have hid := Table.contains_eq_false_iff.2 hunused
  unfold Rpc.exec
  rw [insertTransaction, huid, execute_evaluate_ok_bind, execute_bind, execute_statement]
  simp only [hnew, bind, Except.bind, hrow.id, hid, hrow.idempotencyKey]
  cases htaken : keyTaken args.idempotencyKey db with
  | true => simp [keyViolation]
  | false =>
    simp only [Bool.false_eq_true, if_false, iff_false]
    intro h
    split at h
    · rename_i t' db' hinsert
      have hbulk : Call.Within (fun _ => True) (· ≠ keyViolation)
        (detectBulkOperation ctx (ctx.uuid 1) "transactions" "INSERT") := detectBulkOperation_ne _ _ _
      exact Call.Within.execute_error Db.apply (Call.Within.bind hbulk fun _ => Call.within_pure _) h rfl
    · rename_i e hinsert
      cases h
      -- the other constraints have other names
      split at hinsert
      · cases hinsert
      · rename_i e hreference
        cases hinsert
        repeat' split at hreference
        all_goals cases hreference

/-- What follows the insertion does not raise it. -/
theorem postTransfer_error_iff
    (hrow : ∃ uid t, authUid ctx = .ok uid ∧ newTransaction ctx uid (ctx.uuid 0) args = .ok t)
    (hunused : db.transactions.get? (ctx.uuid 0) = none) :
    (postTransfer ctx args).exec db = .error keyViolation ↔
      keyTaken args.idempotencyKey db = true := by
  obtain ⟨uid, t, huid, hnew⟩ := hrow
  have hinsert := insertTransaction_error_iff huid hnew hunused
  unfold Rpc.exec at *
  rw [← hinsert, postTransfer, execute_bind]
  cases hr : execute Db.apply (insertTransaction ctx args) db with
  | error e => simp
  | ok r =>
    obtain ⟨t, db'⟩ := r
    simp only [reduceCtorEq, iff_false]
    intro herror
    have hrest : Call.Within (fun _ => True) (· ≠ keyViolation)
        (evaluate (notNull "transactions" "amount" args.amount) >>= fun amount => do
          postEntry ctx 2 args t.id args.sourceAccount .debit amount
          onlyIf (args.destAccount ≠ none) do
            postEntry ctx 5 args t.id args.destAccount .credit amount
          let _ ← writeAuditLog ctx (ctx.uuid 8) .create "transactions" (some t.id) none
            (some [("type", .ofText (args.type.map TransactionType.label)),
              ("amount", .ofNumeric args.amount), ("source", .ofUuid args.sourceAccount),
              ("dest", .ofUuid args.destAccount),
              ("idempotency_key", .ofText args.idempotencyKey)])
          return t) :=
      Call.Within.bind (Call.within_evaluate fun _ => notNull_ne) fun _ =>
        Call.Within.bind (postEntry_ne _ _ _ _ _ _) fun _ =>
        Call.Within.bind (Call.Within.onlyIf fun _ => postEntry_ne _ _ _ _ _ _) fun _ =>
        Call.Within.bind (writeAuditLog_ne _ _ _ _ _ _) fun _ => Call.within_pure _
    exact Call.Within.execute_error Db.apply hrest herror rfl

/-- **A call that gets to its insertion** fails there exactly when its key is
taken, by whatever organization. -/
theorem processTransaction_error_iff (h : ReachesInsertion ctx args db)
    (hunused : db.transactions.get? (ctx.uuid 0) = none) :
    (processTransaction ctx args).exec db = .error keyViolation ↔
      keyTaken args.idempotencyKey db = true := by
  obtain ⟨row, htake, htokens⟩ := (admits_iff ⟨50, by decide⟩ ⟨10, by decide⟩ ctx db
    (by decide)).1 h.limit
  obtain ⟨source, hcovered⟩ := h.covered
  have hcovered' : IsCovered args (db.apply (.rateLimit row)) source := hcovered.congr rfl
  have hreaches : (processTransaction ctx args).exec db =
      (postTransfer ctx args).exec (db.apply (.rateLimit row)) := by
    have hlimit : (checkRateLimit ctx (some ("txn:" ++ formatUuid (authOrgId ctx)))
        (some ⟨50, by decide⟩) (some ⟨10, by decide⟩)).exec db =
        .ok (some (decide (0 ≤ row.tokens.1)), db.apply (.rateLimit row)) := by
      rw [execute_checkRateLimit ctx db (by decide), htake]
    have hnone : (existingTransaction args (db.apply (.rateLimit row))).filter
        (fun t => decide t.IsNotNull) = none := by
      refine Option.filter_eq_none_iff.2 fun t ht => ?_
      simpa using h.notReplayed t ht
    have hcheck := checkTransfer_goesThrough hcovered'
    unfold Rpc.exec at *
    have hallowed : ¬ (Cond.not (some (decide (0 ≤ row.tokens.1)))).Holds := by
      simp [Cond.holds_not, htokens]
    rw [processTransaction, execute_bind_of_ok _ hlimit, execute_bind_of_ok (a := ()) _
      ((execute_onlyIf_throw_eq_ok _).2 ⟨hallowed, rfl⟩), execute_select_bind, hnone]
    exact execute_bind_of_ok _ hcheck
  rw [hreaches]
  exact postTransfer_error_iff h.row hunused

end

/-! ## The two runs -/

/-- No two transactions have one key in a state that is reached. -/
theorem keysUnique_of_reach {ι : Type} [DecidableEq ι] {calls : ι → RpcCall} {db : Db}
    {σ : State ι Db Write LockKey PgError Unit}
    (h : Reach (Step Db.apply) Always (State.initial db.beforeAccounts fun i => (calls i).rpc) σ) :
    KeysUnique σ.committed := by
  have hstart : reservation.Inv db.beforeAccounts :=
    ⟨fun _ ht => (nomatch ht), fun _ he => (nomatch he), fun _ he => nomatch he⟩
  exact (Discipline.sound hstart (fun i => safe_reservation (calls i) _) h).inv.key

section

variable {ctx : Context} {args : TransactionArgs} {o : Uuid} {db db' : Db}
  (hclaim : authOrgId ctx = some o) (horg : args.orgId = some o) (hsame : db.SameTenant o db')
  (hunique : KeysUnique db) (hunique' : KeysUnique db') (hground : Grounded ctx.server db)
  (hground' : Grounded ctx.server db') (hfresh : ctx.Fresh 0 db) (hfresh' : ctx.Fresh 0 db')

include hclaim horg hsame hunique hunique' hground hground' hfresh hfresh'

/-- **Whatever an onlooker does not see of the logs**, he sees the two calls end in
the same way exactly when they find their key in the same state. -/
theorem seenOutcome_iff {see : Write → Option Write} (hsee : Conceals ctx db db' see) :
    ((outcome Db.apply db (processTransaction ctx args)).map fun r => (r.1, r.2.filterMap see)) =
        ((outcome Db.apply db' (processTransaction ctx args)).map fun r =>
          (r.1, r.2.filterMap see)) ↔
      (ReachesInsertion ctx args db →
        keyTaken args.idempotencyKey db = keyTaken args.idempotencyKey db') := by
  constructor
  · intro h hreaches
    have hreaches' := hreaches.congr hclaim horg hsame hunique hunique'
    have hfails := processTransaction_error_iff hreaches (hfresh.head (by decide)).transactions
    have hfails' := processTransaction_error_iff hreaches' (hfresh'.head (by decide)).transactions
    rw [Rpc.exec, execute_eq_error,
      ← map_eq_error (g := fun r => (r.1, r.2.filterMap see))] at hfails hfails'
    rw [Bool.eq_iff_iff, ← hfails, ← hfails', h]
  · intro hkey
    refine (related_processTransaction hclaim horg hsame hsee hunique hunique' hground hground'
      hfresh hfresh' hkey).map_eq ?_
    rintro t t' ws ws' ⟨rfl, hws⟩
    rw [hws]

end

/-- **What a transfer reveals.**  Take two states that any calls on a server have
reached, however they interleaved, with the same rows of an organization.  A call
of `process_transaction` in the organization ends in the same way in both, as far
as its outcome is compared, exactly when it does not get to its insertion or finds
its key used in both states or in neither; and when the audit log looks the same
to it, also the hashes and the alerts are the same. -/
theorem sameOutcome_iff {ι ι' : Type} [DecidableEq ι] [DecidableEq ι'] {calls : ι → RpcCall}
    {calls' : ι' → RpcCall} {ctx : Context} (hserver : ∀ i, (calls i).context.server = ctx.server)
    (hserver' : ∀ i, (calls' i).context.server = ctx.server) {db₀ db₀' : Db}
    {σ : State ι Db Write LockKey PgError Unit} {σ' : State ι' Db Write LockKey PgError Unit}
    (h : Reach (Step Db.apply) Always (State.initial db₀.beforeAccounts fun i => (calls i).rpc) σ)
    (h' : Reach (Step Db.apply) Always
      (State.initial db₀'.beforeAccounts fun i => (calls' i).rpc) σ')
    {o : Uuid} (hsame : σ.committed.SameTenant o σ'.committed) {args : TransactionArgs}
    (hclaim : authOrgId ctx = some o) (horg : args.orgId = some o)
    (hfresh : ctx.Fresh 0 σ.committed) (hfresh' : ctx.Fresh 0 σ'.committed) :
    (SameOutcome ctx args σ.committed σ'.committed ↔ (ReachesInsertion ctx args σ.committed →
      keyTaken args.idempotencyKey σ.committed = keyTaken args.idempotencyKey σ'.committed)) ∧
    (SameLog ctx σ.committed σ'.committed →
      (outcome Db.apply σ.committed (processTransaction ctx args) =
        outcome Db.apply σ'.committed (processTransaction ctx args) ↔
      (ReachesInsertion ctx args σ.committed →
        keyTaken args.idempotencyKey σ.committed = keyTaken args.idempotencyKey σ'.committed))) := by
  have hiff := fun {see} (hsee : Conceals ctx σ.committed σ'.committed see) =>
    seenOutcome_iff hclaim horg hsame (keysUnique_of_reach h) (keysUnique_of_reach h')
      (grounded_of_reach hserver h) (grounded_of_reach hserver' h') hfresh hfresh' hsee
  refine ⟨hiff (conceals_seen ctx _ _), fun hlog => ?_⟩
  have hwhole : ∀ r : Except PgError (Transaction × List Write),
      (r.map fun r => (r.1, r.2.filterMap some)) = r := by
    intro r
    cases r <;> simp [Except.map]
  have hiff := hiff hlog.conceals
  rwa [hwhole, hwhole] at hiff

/-! ## A key of another tenant -/

deriving instance DecidableEq for Account

/-- The organizations `1` and `2`, without members. -/
def Db.starters : Db :=
  { Db.starter with organizations := Db.starter.organizations.put ⟨2, .starter⟩ }

/-- Calls of two tenants: two accounts of the organization `1`, two accounts of the
organization `2`, and a transfer between the latter under the key `key`. -/
def tenantCalls : ℕ → RpcCall
  | 0 => .opening 100 .credit
  | 1 => .opening 200 .checking
  | 2 => .createAccount (.plain true 8 2 0 400)
      { name := some "account", type := some .credit, currency := some "USD",
        metadata := some ⟨"{}"⟩ }
  | 3 => .createAccount (.plain true 8 2 0 500)
      { name := some "account", type := some .checking, currency := some "USD",
        metadata := some ⟨"{}"⟩ }
  | _ => .processTransaction (.plain true 8 2 0 600)
      { RpcCall.transferArgs 10 400 (some 500) (some "key") with orgId := some 2 }

/-- A call of the organization `1` under the same key. -/
def laterContext : Context := .plain true 7 1 0 700

def laterArgs : TransactionArgs := RpcCall.transferArgs 10 100 (some 200) (some "key")

/-- Two states without members and without transfers of the organization `1` have
the same rows of it when they have the same accounts of it; and the identifiers of
the later call are unused. -/
def comparable (db db' : Db) : Bool :=
  decide (db.accounts.rows.filter (fun a => decide (a.orgId = 1)) =
    db'.accounts.rows.filter fun a => decide (a.orgId = 1)) &&
  [db, db'].all fun db =>
    db.transactions.rows.all (fun t => decide (t.orgId ≠ 1)) &&
    db.organizationMembers.rows.isEmpty &&
    (db.rateLimits.get? ("txn:" ++ formatUuid (some 1))).isNone &&
    (List.range Context.generated).all fun n =>
      (db.accounts.get? (laterContext.uuid n)).isNone &&
      (db.transactions.get? (laterContext.uuid n)).isNone &&
      (db.ledgerEntries.get? (laterContext.uuid n)).isNone &&
      (db.auditLog.get? (laterContext.uuid n)).isNone &&
      (db.securityEvents.get? (laterContext.uuid n)).isNone

theorem comparable_spec {db db' : Db} (h : comparable db db' = true) :
    db.SameTenant 1 db' ∧ laterContext.Fresh 0 db ∧ laterContext.Fresh 0 db' := by
  simp only [comparable, List.all_cons, List.all_nil, Bool.and_true, Bool.and_eq_true,
    decide_eq_true_eq] at h
  obtain ⟨haccounts, ⟨⟨⟨htransactions, hmembers⟩, hlimit⟩, hids⟩,
    ⟨⟨htransactions', hmembers'⟩, hlimit'⟩, hids'⟩ := h
  have hinj : Set.InjOn laterContext.uuid (Set.Iio Context.generated) := by
    intro i hi j hj h
    have hi : i < 9 := hi
    have hj : j < 9 := hj
    have hnat : (700 + i) % 2 ^ 128 = (700 + j) % 2 ^ 128 := congrArg BitVec.toNat h
    omega
  have hfresh : ∀ {db : Db}, ((List.range Context.generated).all fun n =>
      (db.accounts.get? (laterContext.uuid n)).isNone &&
      (db.transactions.get? (laterContext.uuid n)).isNone &&
      (db.ledgerEntries.get? (laterContext.uuid n)).isNone &&
      (db.auditLog.get? (laterContext.uuid n)).isNone &&
      (db.securityEvents.get? (laterContext.uuid n)).isNone) = true → laterContext.Fresh 0 db := by
    intro db h
    refine ⟨hinj, fun n _ hn => ?_⟩
    have hn := List.all_eq_true.1 h n (List.mem_range.2 hn)
    simp only [Bool.and_eq_true, Option.isNone_iff_eq_none] at hn
    exact ⟨hn.1.1.1.1, hn.1.1.1.2, hn.1.1.2, hn.1.2, hn.2⟩
  refine ⟨⟨fun a ha => ?_, fun t ht => ?_, fun m _ => ?_, ?_⟩, hfresh hids, hfresh hids'⟩
  · have hmem : ∀ db : Db, a ∈ db.accounts ↔
        a ∈ db.accounts.rows.filter fun a => decide (a.orgId = 1) := by
      intro db
      rw [List.mem_filter, Table.mem_def]
      simp [ha]
    rw [hmem, hmem, haccounts]
  · have hnone := fun h => of_decide_eq_true (List.all_eq_true.1 htransactions t h) ht
    have hnone' := fun h => of_decide_eq_true (List.all_eq_true.1 htransactions' t h) ht
    exact iff_of_false hnone hnone'
  · rw [Table.mem_def, Table.mem_def, List.isEmpty_iff.1 hmembers, List.isEmpty_iff.1 hmembers']
  · rw [Option.isNone_iff_eq_none.1 hlimit, Option.isNone_iff_eq_none.1 hlimit']

/-- The theorem at work: the organization `2` has opened its accounts, or not. -/
theorem sameOutcome_iff_openings :
    let start := State.initial Db.starters.beforeAccounts fun n => (tenantCalls n).rpc
    ∃ σ σ', Reach (Step Db.apply) Always start σ ∧ Reach (Step Db.apply) Always start σ' ∧
      SameOutcome laterContext laterArgs σ.committed σ'.committed := by
  intro start
  let p := fun n => (tenantCalls n).rpc
  have hcheck : ((serial Db.apply p [0, 1] Db.starters.beforeAccounts).any fun db =>
      (serial Db.apply p [0, 1, 2, 3] Db.starters.beforeAccounts).any fun db' =>
        comparable db db' && (keyTaken (some "key") db == keyTaken (some "key") db')) = true := by
    decide +kernel
  obtain ⟨db, hserial, hcheck⟩ := (Option.any_eq_true _ _).1 hcheck
  obtain ⟨db', hserial', hcheck⟩ := (Option.any_eq_true _ _).1 hcheck
  obtain ⟨σ, hreach, rfl⟩ := reach_of_serial (by decide) hserial
  obtain ⟨σ', hreach', rfl⟩ := reach_of_serial (by decide) hserial'
  rw [Bool.and_eq_true, beq_iff_eq] at hcheck
  obtain ⟨hsame, hfresh, hfresh'⟩ := comparable_spec hcheck.1
  have hserver : ∀ n, (tenantCalls n).context.server = laterContext.server := by
    intro n
    unfold tenantCalls
    split <;> rfl
  exact ⟨σ, σ', hreach, hreach', (sameOutcome_iff hserver hserver hreach hreach' hsame rfl rfl
    hfresh hfresh').1.2 fun _ => hcheck.2⟩

/-- **Another tenant's key.**  The organization `2` has made a transfer under a key,
and the organization `1` cannot use it. -/
theorem not_sameOutcome_foreignKey :
    ¬ ∀ (calls : ℕ → RpcCall) (ctx : Context) (db₀ : Db)
        (σ σ' : State ℕ Db Write LockKey PgError Unit) (o : Uuid) (args : TransactionArgs),
      (∀ i, (calls i).context.server = ctx.server) →
      Reach (Step Db.apply) Always (State.initial db₀.beforeAccounts fun i => (calls i).rpc) σ →
      Reach (Step Db.apply) Always (State.initial db₀.beforeAccounts fun i => (calls i).rpc) σ' →
      σ.committed.SameTenant o σ'.committed → authOrgId ctx = some o → args.orgId = some o →
      ctx.Fresh 0 σ.committed → ctx.Fresh 0 σ'.committed →
      SameOutcome ctx args σ.committed σ'.committed := by
  intro h
  let p := fun n => (tenantCalls n).rpc
  let fails := fun db : Db => match (processTransaction laterContext laterArgs).exec db with
    | .ok _ => false
    | .error e => decide (e = keyViolation)
  have hcheck : ((serial Db.apply p [0, 1] Db.starters.beforeAccounts).any fun db =>
      (serial Db.apply p [0, 1, 2, 3, 4] Db.starters.beforeAccounts).any fun db' =>
        comparable db db' && (!fails db && fails db')) = true := by
    decide +kernel
  obtain ⟨db, hserial, hcheck⟩ := (Option.any_eq_true _ _).1 hcheck
  obtain ⟨db', hserial', hcheck⟩ := (Option.any_eq_true _ _).1 hcheck
  obtain ⟨σ, hreach, rfl⟩ := reach_of_serial (by decide) hserial
  obtain ⟨σ', hreach', rfl⟩ := reach_of_serial (by decide) hserial'
  rw [Bool.and_eq_true, Bool.and_eq_true, Bool.not_eq_true'] at hcheck
  obtain ⟨hcomparable, hpasses, hfails⟩ := hcheck
  obtain ⟨hsame, hfresh, hfresh'⟩ := comparable_spec hcomparable
  have hserver : ∀ n, (tenantCalls n).context.server = laterContext.server := by
    intro n
    unfold tenantCalls
    split <;> rfl
  have hsameOutcome := h tenantCalls laterContext Db.starters σ σ' 1 laterArgs hserver hreach
    hreach' hsame rfl rfl hfresh hfresh'
  have hfailed : (processTransaction laterContext laterArgs).exec σ'.committed =
      .error keyViolation := by
    simp only [fails] at hfails
    split at hfails
    · cases hfails
    · rename_i e he
      rw [he, of_decide_eq_true hfails]
  have hpassed : (processTransaction laterContext laterArgs).exec σ.committed =
      .error keyViolation := by
    unfold SameOutcome at hsameOutcome
    unfold Rpc.exec at *
    rw [execute_eq_error,
      ← map_eq_error (g := fun r => (r.1, r.2.filterMap Write.seen))] at hfailed ⊢
    rw [hsameOutcome, hfailed]
  simp only [fails, hpassed] at hpasses
  exact absurd hpasses (by decide)

end EnterpriseSystem
