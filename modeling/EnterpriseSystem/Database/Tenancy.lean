import EnterpriseSystem.Database.Progress

/-!
# Organizations

What a call may do to an organization, compared with what the policies of the
tables allow.  The functions run as the owner of the tables, to whom no policy
applies, and check no membership of their own: `create_account` takes the
organization from the caller's claim, and `process_transaction` from an argument.

* `transactionsInsertBilling`, `accountsInsertAdmin` — the policies.
* `RpcCall.GrantsNoMore` — the rows a call inserts satisfy them, and no row of
  another organization is changed.
* `grantsNoMore_iff` — this holds of the calls the policies permit, and of the
  calls that do not go through for other reasons.
-/

namespace EnterpriseSystem

open Relational Concurrency

/-! ## The policies -/

/-- The condition of both policies: the row belongs to the caller's organization,
and the caller is an active owner, admin or billing member of it. -/
def insertPolicy (ctx : Context) (uid orgId : Uuid) (db : Db) : Prop :=
  authOrgId ctx = some orgId ∧ db.organizationMembers.rows.any (fun m =>
    decide (authOrgId ctx = some m.orgId ∧ m.userId = uid ∧
      m.role ∈ [UserRole.owner, .admin, .billing] ∧ m.isActive = true)) = true

/-- The policy `transactions_insert_billing`. -/
def transactionsInsertBilling (ctx : Context) (uid orgId : Uuid) (db : Db) : Prop :=
  insertPolicy ctx uid orgId db

/-- The policy `accounts_insert_admin`. -/
def accountsInsertAdmin (ctx : Context) (uid orgId : Uuid) (db : Db) : Prop :=
  insertPolicy ctx uid orgId db

/-! ## Rows of other organizations -/

/-- The rows of organizations other than `o` are the same. -/
structure Db.SameElsewhere (o : Option Uuid) (db db' : Db) : Prop where
  accounts : ∀ a : Account, o ≠ some a.orgId → (a ∈ db'.accounts ↔ a ∈ db.accounts)
  transactions : ∀ t : Transaction, o ≠ some t.orgId → (t ∈ db'.transactions ↔ t ∈ db.transactions)
  ledgerEntries : ∀ e : LedgerEntry, o ≠ some e.orgId →
    (e ∈ db'.ledgerEntries ↔ e ∈ db.ledgerEntries)

namespace Db.SameElsewhere

variable {o : Option Uuid} {db db' db'' : Db}

theorem trans (h : db.SameElsewhere o db') (h' : db'.SameElsewhere o db'') :
    db.SameElsewhere o db'' where
  accounts a ha := (h'.accounts a ha).trans (h.accounts a ha)
  transactions t ht := (h'.transactions t ht).trans (h.transactions t ht)
  ledgerEntries e he := (h'.ledgerEntries e he).trans (h.ledgerEntries e he)

theorem of_sameBooks (h : db.SameBooks db') : db.SameElsewhere o db' where
  accounts a _ := by rw [h.accounts]
  transactions t _ := by rw [h.transactions]
  ledgerEntries e _ := by rw [h.ledgerEntries]

theorem account {a : Account} (ha : o = some a.orgId)
    (hold : ∀ b, db.accounts.get? a.id = some b → b.orgId = a.orgId) :
    db.SameElsewhere o (db.apply (.account a)) where
  accounts _ hb := Table.mem_put_iff_of_ne (f := Account.orgId) hold
    fun hc => hb (ha.trans (congrArg some hc.symm))
  transactions _ _ := Iff.rfl
  ledgerEntries _ _ := Iff.rfl

theorem transaction {t : Transaction} (ht : o = some t.orgId)
    (hnew : db.transactions.get? t.id = none) :
    db.SameElsewhere o (db.apply (.transaction t)) where
  accounts _ _ := Iff.rfl
  transactions t' ht' := Table.mem_put_iff_of_ne (f := Transaction.orgId)
    (fun c hc => by rw [hnew] at hc; cases hc) fun hc => ht' (ht.trans (congrArg some hc.symm))
  ledgerEntries _ _ := Iff.rfl

theorem ledgerEntry {e : LedgerEntry} (he : o = some e.orgId)
    (hnew : db.ledgerEntries.get? e.id = none) :
    db.SameElsewhere o (db.apply (.ledgerEntry e)) where
  accounts _ _ := Iff.rfl
  transactions _ _ := Iff.rfl
  ledgerEntries e' he' := Table.mem_put_iff_of_ne (f := LedgerEntry.orgId)
    (fun c hc => by rw [hnew] at hc; cases hc) fun hc => he' (he.trans (congrArg some hc.symm))

end Db.SameElsewhere

/-- **An opening** touches only the caller's organization. -/
theorem IsOpening.sameElsewhere {ctx : Context} {args : AccountArgs} {a : Account} {db db' : Db}
    (h : IsOpening ctx args a db db') : db.SameElsewhere (authOrgId ctx) db' := by
  refine (Db.SameElsewhere.account h.row.orgId fun b hb => ?_).trans (.of_sameBooks h.frame)
  rw [h.fresh] at hb
  cases hb

/-- A posting to an account of the organization touches only the organization. -/
theorem IsPosting.sameElsewhere {args : TransactionArgs} {transactionId : Uuid}
    {accountId : Option Uuid} {entryType : EntryType} {amount : Numeric} {db : Db}
    {old new : Account} {e : LedgerEntry}
    (h : IsPosting args transactionId accountId entryType amount db old new e)
    (horg : args.orgId = some old.orgId) : db.SameElsewhere args.orgId (db.post new e) := by
  have hneworg : new.orgId = old.orgId := by
    obtain ⟨now, hnew⟩ := h.frame
    rw [hnew]
  refine (Db.SameElsewhere.account (hneworg ▸ horg) fun b hb => ?_).trans
    (.ledgerEntry h.entry.orgId h.fresh)
  rw [h.new_id, h.get?_old] at hb
  cases hb
  exact hneworg.symm

/-- **A transfer** touches only the organization of its argument. -/
theorem IsTransfer.sameElsewhere {ctx : Context} {args : TransactionArgs} {t : Transaction}
    {db db' : Db} (h : IsTransfer ctx args t db db') : db.SameElsewhere args.orgId db' := by
  obtain ⟨covering, hcovering⟩ := h.covered
  obtain ⟨amount, source, source', debit, -, hdebit, hrest⟩ := h.postings
  have hactive := activeAccount_eq_some.1 hcovering.sourceActive
  cases hdebit.row.symm.trans hactive.1
  have htxn : db.SameElsewhere args.orgId (db.apply (.transaction t)) :=
    .transaction h.row.orgId h.fresh
  have hdebit' : IsPosting args t.id args.sourceAccount .debit amount
      (db.apply (.transaction t)) covering source' debit := hdebit.congr rfl rfl
  have hfirst := htxn.trans (hdebit'.sameElsewhere hactive.2.1)
  rcases hrest with ⟨-, hdb'⟩ | ⟨dest, dest', credit, hcredit, hdb'⟩
  · exact hfirst.trans (.of_sameBooks hdb')
  · have hrow := hcredit.row
    rw [h.row.accountRow_dest hdebit.accountId_eq] at hrow
    have hdest : args.orgId = some dest.orgId := by
      rcases hcovering.destActive with hnone | ⟨a, ha⟩
      · rw [hnone] at hrow
        cases hrow
      · obtain ⟨harow, horg, -⟩ := activeAccount_eq_some.1 ha
        cases hrow.symm.trans harow
        exact horg
    exact (hfirst.trans (hcredit.sameElsewhere hdest)).trans (.of_sameBooks hdb')

/-- A transfer inserts no account. -/
theorem IsTransfer.get?_ne_none {ctx : Context} {args : TransactionArgs} {t : Transaction}
    {db db' : Db} (h : IsTransfer ctx args t db db') {a : Account} (ha : a ∈ db'.accounts) :
    db.accounts.get? a.id ≠ none := by
  have hpost : ∀ {args transactionId accountId entryType amount db old new e},
      IsPosting args transactionId accountId entryType amount db old new e →
      ∀ {a : Account}, a ∈ (db.post new e).accounts → db.accounts.get? a.id ≠ none := by
    intro _ _ _ _ _ db old new _ hp a ha
    rcases Table.mem_put_iff.1 ha with rfl | ⟨ha, -⟩
    · rw [hp.new_id, hp.get?_old]
      exact Option.some_ne_none old
    · rw [Table.get?_of_mem ha]
      exact Option.some_ne_none a
  obtain ⟨amount, source, source', debit, -, hdebit, hrest⟩ := h.postings
  have hfirst : ∀ {a : Account},
      a ∈ ((db.apply (.transaction t)).post source' debit).accounts →
        db.accounts.get? a.id ≠ none := by
    have hdebit' : IsPosting args t.id args.sourceAccount .debit amount
        (db.apply (.transaction t)) source source' debit := hdebit.congr rfl rfl
    exact fun {_} ha => hpost hdebit' ha
  rcases hrest with ⟨-, hdb'⟩ | ⟨dest, dest', credit, hcredit, hdb'⟩
  · rw [hdb'.accounts] at ha
    exact hfirst ha
  · rw [hdb'.accounts] at ha
    obtain ⟨b, hb⟩ := Option.ne_none_iff_exists'.1 (hpost hcredit ha)
    rw [← Table.key_of_get? hb]
    exact hfirst (Table.mem_of_get? hb)

/-! ## Calls -/

namespace RpcCall

/-- The policies permit the row the call inserts. -/
def IsPermitted (u : Uuid) (db : Db) : RpcCall → Prop
  | .createAccount ctx _ => ∃ o, authOrgId ctx = some o ∧ accountsInsertAdmin ctx u o db
  | .processTransaction ctx args =>
    ∃ o, args.orgId = some o ∧ transactionsInsertBilling ctx u o db

/-- Everything the call checks is satisfied. -/
def IsReady (db : Db) : RpcCall → Prop
  | .createAccount ctx args => OpeningReady ctx args db
  | .processTransaction ctx args => TransferReady ctx args db

/-- The call grants no more than the policies: they permit the rows it inserts,
and the rows of organizations other than the caller's stay as they are. -/
structure GrantsNoMore (u : Uuid) (db : Db) (c : RpcCall) : Prop where
  transactions : ∀ t ∈ (c.step db).transactions, db.transactions.get? t.id = none →
    transactionsInsertBilling c.context u t.orgId db
  accounts : ∀ a ∈ (c.step db).accounts, db.accounts.get? a.id = none →
    accountsInsertAdmin c.context u a.orgId db
  elsewhere : db.SameElsewhere (authOrgId c.context) (c.step db)

/-- A call that leaves the books as they are grants nothing. -/
theorem GrantsNoMore.of_sameBooks {u : Uuid} {db : Db} {c : RpcCall}
    (h : db.SameBooks (c.step db)) : c.GrantsNoMore u db where
  transactions t ht hnew := by
    rw [h.transactions] at ht
    exact absurd rfl (Table.get?_eq_none_iff.1 hnew t ht)
  accounts a ha hnew := by
    rw [h.accounts] at ha
    exact absurd rfl (Table.get?_eq_none_iff.1 hnew a ha)
  elsewhere := .of_sameBooks h

/-- **A permitted call** grants no more than the policies. -/
theorem IsPermitted.grantsNoMore {u : Uuid} {db : Db} {c : RpcCall} (h : c.IsPermitted u db) :
    c.GrantsNoMore u db := by
  rcases c.step_cases db with hsame | ⟨ctx, args, a, rfl, -, ha⟩ | ⟨ctx, args, t, rfl, -, ht⟩
  · exact .of_sameBooks hsame
  · obtain ⟨o, horg, hpolicy⟩ := h
    cases horg.symm.trans ha.row.orgId
    refine ⟨fun t ht hnew => ?_, fun a' ha' hnew => ?_, ha.sameElsewhere⟩
    · rw [ha.frame.transactions] at ht
      exact absurd rfl (Table.get?_eq_none_iff.1 hnew t ht)
    · rw [ha.frame.accounts] at ha'
      rcases Table.mem_put_iff.1 ha' with rfl | ⟨hmem, -⟩
      · exact hpolicy
      · exact absurd rfl (Table.get?_eq_none_iff.1 hnew a' hmem)
  · obtain ⟨o, horg, hpolicy⟩ := h
    cases horg.symm.trans ht.row.orgId
    refine ⟨fun t' ht' hnew => ?_, fun a ha hnew => absurd hnew (ht.get?_ne_none ha), ?_⟩
    · rw [ht.transactions] at ht'
      rcases Table.mem_put_iff.1 ht' with rfl | ⟨hmem, -⟩
      · exact hpolicy
      · exact absurd rfl (Table.get?_eq_none_iff.1 hnew t' hmem)
    · have helsewhere := ht.sameElsewhere
      rw [horg, ← hpolicy.1] at helsewhere
      exact helsewhere

/-- **A call that is ready** inserts its row, so the policies have to permit it. -/
theorem IsReady.isPermitted {u : Uuid} {db : Db} {c : RpcCall} (h : c.IsReady db)
    (hsub : c.context.session.sub = some u) (hfresh : c.context.Fresh 0 db)
    (hgrants : c.GrantsNoMore u db) : c.IsPermitted u db := by
  cases c with
  | createAccount ctx args =>
    obtain ⟨a, db', hexec⟩ : ∃ a db', (EnterpriseSystem.createAccount ctx args).exec db =
        .ok (a, db') := createAccount_goesThrough hsub hfresh h
    have ha := createAccount_ok hexec
    have hstep : (RpcCall.createAccount ctx args).step db = db' := by
      simp only [step, rpc, Rpc.exec, execute_bind, hexec, execute_pure]
    refine ⟨a.orgId, ha.row.orgId, hgrants.accounts a ?_ ha.fresh⟩
    rw [hstep, ha.frame.accounts]
    exact Table.mem_put_self _ a
  | processTransaction ctx args =>
    obtain ⟨t, db', hexec, ht⟩ : ∃ t db', (EnterpriseSystem.processTransaction ctx args).exec db =
        .ok (t, db') ∧ IsTransfer ctx args t db db' := processTransaction_goesThrough hsub hfresh h
    have hstep : (RpcCall.processTransaction ctx args).step db = db' := by
      simp only [step, rpc, Rpc.exec, execute_bind, hexec, execute_pure]
    refine ⟨t.orgId, ht.row.orgId, hgrants.transactions t ?_ ht.fresh⟩
    rw [hstep, ht.transactions]
    exact Table.mem_put_self _ t

/-- **The functions check no membership.**  A call grants no more than the
policies exactly when they permit it, or when it does not go through for reasons
of its own. -/
theorem grantsNoMore_iff {u : Uuid} {db : Db} {c : RpcCall}
    (hsub : c.context.session.sub = some u) (hfresh : c.context.Fresh 0 db) :
    c.GrantsNoMore u db ↔ c.IsPermitted u db ∨ ¬ c.IsReady db := by
  constructor
  · intro hgrants
    by_contra hc
    obtain ⟨hpermitted, hready⟩ := not_or.1 hc
    exact hpermitted ((not_not.1 hready).isPermitted hsub hfresh hgrants)
  · rintro (hpermitted | hready)
    · exact hpermitted.grantsNoMore
    · rcases c.step_cases db with hsame | ⟨ctx, args, a, rfl, hexec, ha⟩ |
        ⟨ctx, args, t, rfl, hexec, ht⟩
      · exact .of_sameBooks hsame
      · exact absurd (ha.ready hexec) hready
      · exact absurd (ht.ready hexec) hready

end RpcCall

/-- The theorem at work: the user `7` of organization `1` opens an account. -/
theorem grantsNoMore_iff_opening :
    (RpcCall.opening 100 .checking).GrantsNoMore 7 Db.starter ↔
      (RpcCall.opening 100 .checking).IsPermitted 7 Db.starter ∨
        ¬ (RpcCall.opening 100 .checking).IsReady Db.starter := by
  refine RpcCall.grantsNoMore_iff rfl ⟨?_, fun n _ _ => ⟨rfl, rfl, rfl, rfl, rfl⟩⟩
  intro i hi j hj h
  have hi : i < 9 := hi
  have hj : j < 9 := hj
  have hnat : (100 + i) % 2 ^ 128 = (100 + j) % 2 ^ 128 := congrArg BitVec.toNat h
  omega

/-- The user `9`, who claims organization `2` and is a member of none, transfers
ten dollars between two accounts of organization `1`. -/
def foreignTransfer : RpcCall :=
  .processTransaction (.plain true 9 2 0 300) (RpcCall.transferArgs 10 100 (some 200) none)

/-- **Somebody else's accounts.**  The call goes through. -/
theorem grantsMore_foreignTransfer :
    ¬ ∀ u db (c : RpcCall), c.context.session.sub = some u → c.GrantsNoMore u db := by
  intro h
  let db := RpcCall.openings.foldl RpcCall.step Db.starter
  have hgrants := h 9 db foreignTransfer rfl
  have hrow : ((foreignTransfer.step db).transactions.get? 300).any
      (fun t => decide (t.orgId = 1 ∧ (db.transactions.get? 300).isNone = true)) = true := by
    decide +kernel
  obtain ⟨t, ht, hrow⟩ := (Option.any_eq_true _ _).1 hrow
  obtain ⟨horg, hnew⟩ := of_decide_eq_true hrow
  have hpolicy := hgrants.transactions t (Table.mem_of_get? ht) (by
    rw [Table.key_of_get? ht]
    exact Option.isNone_iff_eq_none.1 hnew)
  rw [horg] at hpolicy
  exact absurd hpolicy.1 (by decide)

end EnterpriseSystem
