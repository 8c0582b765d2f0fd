import EnterpriseSystem.Base.Along
import EnterpriseSystem.Database.BalanceSnapshot
import EnterpriseSystem.Database.Progress

/-!
# What a transfer holds

A transfer takes its locks in stages: the bucket of its organization, the source,
the idempotency key with the insertion of its row, and the destination.  Every
account it writes it has locked before, and keeps its organization and its status.

* `custody` — the discipline: a locked account stays as it is, and no account goes
  away or changes its organization.
* `Replaces` — the accounts a call has written, with what they keep of the
  committed rows.
* `Stage` — how far a transfer has come: which locks it holds and which it may ask
  for next.
* `along_processTransaction` — a transfer is at one of the stages before each of
  its statements, whatever the others do.
-/

namespace EnterpriseSystem

open Relational Concurrency

/-! ## The discipline -/

/-- The rules of the calls. -/
def custody : Discipline Db LockKey PgError where
  Inv _ := True
  Rely held db db' :=
    (∀ id, accountLock id ∈ held → db'.accounts.get? id = db.accounts.get? id) ∧
      ∀ id a, db.accounts.get? id = some a →
        ∃ a', db'.accounts.get? id = some a' ∧ a'.orgId = a.orgId
  Allowed _ := True
  refl _ _ := ⟨fun _ _ => rfl, fun _ a ha => ⟨a, ha, rfl⟩⟩
  trans h h' := by
    refine ⟨fun id hid => (h'.1 id hid).trans (h.1 id hid), fun id a ha => ?_⟩
    obtain ⟨a', ha', horg⟩ := h.2 id a ha
    obtain ⟨a'', ha'', horg'⟩ := h'.2 id a' ha'
    exact ⟨a'', ha'', horg'.trans horg⟩

/-- A call holds the locks of the accounts it has written, and each of them
replaces a committed row as `K` says. -/
def Replaces (K : Account → Account → Prop) : Assertion Db Write LockKey := fun own held db =>
  ∀ a ∈ updated own, accountLock a.id ∈ held ∧ ∃ b, db.accounts.get? a.id = some b ∧ K b a

theorem updated_append (own ws : List Write) : updated (own ++ ws) = updated own ++ updated ws :=
  List.filterMap_append

theorem posted_append_eq (own ws : List Write) : posted (own ++ ws) = posted own ++ posted ws :=
  List.filterMap_append

theorem updated_eq_nil {ws : List Write} (h : ∀ w ∈ ws, w.Unbooked) : updated ws = [] :=
  List.filterMap_eq_nil_iff.2 fun w hw => (h w hw).1

theorem posted_eq_nil {ws : List Write} (h : ∀ w ∈ ws, w.Unbooked) : posted ws = [] :=
  List.filterMap_eq_nil_iff.2 fun w hw => (h w hw).2

/-- An account a call sees is one it has written or a committed one. -/
theorem get?_view_cases {db : Db} {own : List Write} {i : Uuid} {a : Account}
    (h : (view Db.apply db own).accounts.get? i = some a) :
    (a ∈ updated own ∧ a.id = i) ∨ db.accounts.get? i = some a := by
  have hid : a.id = i := Table.key_of_get? h
  rw [view_updated] at h
  rcases Table.mem_of_mem_foldl_put (Table.mem_of_get? h) with hmem | hmem
  · exact Or.inl ⟨hmem, hid⟩
  · exact Or.inr (hid ▸ Table.get?_of_mem hmem)

namespace Replaces

variable {K : Account → Account → Prop} {own : List Write} {held : List LockKey} {db db' : Db}

theorem nil (held : List LockKey) (db : Db) : Replaces K [] held db := by
  intro a ha
  cases ha

theorem stable (h : Replaces K own held db) (hrely : custody.Rely held db db') :
    Replaces K own held db' := by
  intro a ha
  obtain ⟨hlock, b, hb, hK⟩ := h a ha
  exact ⟨hlock, b, (hrely.1 _ hlock).trans hb, hK⟩

theorem append (h : Replaces K own held db) {ws : List Write} (hws : ∀ w ∈ ws, w.Unbooked)
    (ks : List LockKey) : Replaces K (own ++ ws) (held ++ ks) db := by
  intro a ha
  rw [updated_append, updated_eq_nil hws, List.append_nil] at ha
  obtain ⟨hlock, hrow⟩ := h a ha
  exact ⟨List.mem_append_left _ hlock, hrow⟩

/-- One more account that has been locked. -/
theorem append_account (h : Replaces K own held db) {a : Account} (hlock : accountLock a.id ∈ held)
    (hrow : ∃ b, db.accounts.get? a.id = some b ∧ K b a) :
    Replaces K (own ++ [.account a]) held db := by
  intro a' ha'
  rw [updated_append, List.mem_append] at ha'
  rcases ha' with ha' | ha'
  · exact h a' ha'
  · obtain rfl : a' = a := List.mem_singleton.1 ha'
    exact ⟨hlock, hrow⟩

/-- What a call sees of an account replaces the committed row. -/
theorem get?_view (h : Replaces K own held db) (hrefl : ∀ a, K a a) {i : Uuid} {a : Account}
    (ha : (view Db.apply db own).accounts.get? i = some a) :
    ∃ b, db.accounts.get? i = some b ∧ K b a := by
  rcases get?_view_cases ha with ⟨hmem, rfl⟩ | ha
  · exact (h a hmem).2
  · exact ⟨a, ha, hrefl a⟩

/-- **A call can commit** the accounts it has locked, when they keep their
organization. -/
theorem committable (h : Replaces K own held db) (hK : ∀ a b, K a b → b.orgId = a.orgId) :
    Committable Db.apply custody own held db := by
  intro db' hrely _
  have h' : Replaces K own held db' := h.stable hrely
  refine ⟨trivial, fun held' hdisjoint => ⟨fun id hid => ?_, fun id a ha => ?_⟩⟩
  · refine view_get?_of_not_written fun a ha => ?_
    rintro rfl
    have hmem : a ∈ updated own := List.mem_filterMap.2 ⟨_, ha, rfl⟩
    exact hdisjoint _ (h' a hmem).1 hid
  · have hthere : (view Db.apply db' own).accounts.get? id ≠ none :=
      view_get?_ne_none (by rw [ha]; exact Option.some_ne_none a)
    obtain ⟨a', ha'⟩ := Option.ne_none_iff_exists'.1 hthere
    refine ⟨a', ha', ?_⟩
    rcases get?_view_cases ha' with ⟨hmem, rfl⟩ | hold
    · obtain ⟨-, b, hb, hkeep⟩ := h' a' hmem
      cases hb.symm.trans ha
      exact hK _ _ hkeep
    · cases hold.symm.trans ha
      rfl

end Replaces

/-- An account with the organization and the status of another. -/
def SameStanding (a b : Account) : Prop := b.orgId = a.orgId ∧ b.status = a.status

/-! ## Stages -/

/-- The lock on an account that may be `NULL`. -/
def LocksAccount (id : Option Uuid) (l : LockKey) : Prop := ∃ i, id = some i ∧ l = accountLock i

/-- The lock on a row a call inserts under an identifier generated for it. -/
def LocksGenerated (ctx : Context) (l : LockKey) : Prop :=
  ∃ table n, table ≠ TableName.accounts ∧ n < Context.generated ∧ l = .row table (ctx.uuid n)

/-- The lock on the bucket of the caller's organization. -/
def transferBucket (ctx : Context) : LockKey := .rateLimit ("txn:" ++ formatUuid (authOrgId ctx))

/-- The account is there and belongs to the organization of the argument. -/
def Belongs (args : TransactionArgs) (id : Option Uuid) (db : Db) : Prop :=
  ∃ i a, id = some i ∧ db.accounts.get? i = some a ∧ args.orgId = some a.orgId

/-- How far a transfer has come. -/
inductive Stage where
  /-- the rate limit is being checked -/
  | entering
  /-- the accounts are being checked -/
  | limited
  /-- the source is locked -/
  | sourced
  /-- the row of `transactions` is inserted -/
  | inserted

namespace Stage

variable (ctx : Context) (args : TransactionArgs)

/-- The locks a transfer holds at a stage. -/
def Holds : Stage → List LockKey → Prop
  | entering, held => held = []
  | limited, held => transferBucket ctx ∈ held ∧ ∀ l ∈ held, l = transferBucket ctx
  | sourced, held => transferBucket ctx ∈ held ∧ (∃ l ∈ held, LocksAccount args.sourceAccount l) ∧
      ∀ l ∈ held, l = transferBucket ctx ∨ LocksAccount args.sourceAccount l
  | inserted, held => transferBucket ctx ∈ held ∧ (∃ l ∈ held, LocksAccount args.sourceAccount l) ∧
      ∀ l ∈ held, l = transferBucket ctx ∨ LocksAccount args.sourceAccount l ∨
        LocksAccount args.destAccount l ∨ args.idempotencyKey.map .idempotencyKey = some l ∨
        LocksGenerated ctx l

/-- The locks it may ask for at a stage, besides those it holds. -/
def Asks : Stage → LockKey → Prop
  | entering, l => l = transferBucket ctx
  | limited, l => LocksAccount args.sourceAccount l
  | sourced, l => args.idempotencyKey.map .idempotencyKey = some l ∨ LocksGenerated ctx l
  | inserted, l => LocksAccount args.destAccount l ∨ LocksGenerated ctx l

/-- What it has found out about its accounts. -/
def Checked : Stage → Db → Prop
  | entering, _ => True
  | limited, _ => True
  | _, db => Belongs args args.sourceAccount db ∧
      (args.destAccount = none ∨ Belongs args args.destAccount db)

end Stage

/-- A transfer at a stage, with what it has written. -/
structure TransferAt (ctx : Context) (args : TransactionArgs) (s : Stage) (own : List Write)
    (held : List LockKey) (db : Db) : Prop where
  replaces : Replaces SameStanding own held db
  paired : ∀ e ∈ posted own, ∃ a ∈ updated own, a.id = e.accountId
  holds : s.Holds ctx args held
  checked : s.Checked args db

/-- Where a transfer is before a statement. -/
def TransferPoint (ctx : Context) (args : TransactionArgs) (o : Stmt Db Write LockKey PgError) :
    Assertion Db Write LockKey := fun own held db =>
  ∃ s, TransferAt ctx args s own held db ∧
    ∀ l ∈ o.locks (view Db.apply db own), l ∈ held ∨ Stage.Asks ctx args s l

theorem Belongs.stable {args : TransactionArgs} {id : Option Uuid} {held : List LockKey}
    {db db' : Db} (h : Belongs args id db) (hrely : custody.Rely held db db') :
    Belongs args id db' := by
  obtain ⟨i, a, rfl, ha, horg⟩ := h
  obtain ⟨a', ha', horg'⟩ := hrely.2 i a ha
  exact ⟨i, a', rfl, ha', horg' ▸ horg⟩

/-- An account a transfer has found active. -/
theorem belongs_of_activeAccount {args : TransactionArgs} {id : Option Uuid} {own : List Write}
    {held : List LockKey} {db : Db} (h : Replaces SameStanding own held db)
    (hactive : ¬ (activeAccount args.orgId id (view Db.apply db own)).isNone = true) :
    Belongs args id db := by
  rw [Option.isNone_iff_eq_none, ← ne_eq, Option.ne_none_iff_exists'] at hactive
  obtain ⟨a, ha⟩ := hactive
  obtain ⟨hrow, horg, -⟩ := activeAccount_eq_some.1 ha
  obtain ⟨i, rfl, hget⟩ := Option.bind_eq_some_iff.1 hrow
  obtain ⟨b, hb, hstanding⟩ := h.get?_view (fun _ => ⟨rfl, rfl⟩) hget
  exact ⟨i, b, rfl, hb, hstanding.1 ▸ horg⟩

/-- The row lock of an account that belongs somewhere. -/
theorem locksAccount_lockAccount {id : Option Uuid} {db : Db} {l : LockKey}
    (h : l ∈ lockAccount id db) : LocksAccount id l := by
  obtain ⟨a, ha, rfl⟩ : ∃ a, accountRow id db = some a ∧ LockKey.row .accounts a.id = l := by
    simpa [lockAccount] using h
  obtain ⟨i, rfl, hget⟩ := Option.bind_eq_some_iff.1 ha
  exact ⟨i, rfl, by rw [← Table.key_of_get? hget]⟩

theorem Belongs.lockAccount {args : TransactionArgs} {id : Option Uuid} {db : Db}
    (h : Belongs args id db) (own : List Write) :
    ∃ l ∈ EnterpriseSystem.lockAccount id (view Db.apply db own), LocksAccount id l := by
  obtain ⟨i, a, rfl, ha, -⟩ := h
  have hthere : (view Db.apply db own).accounts.get? i ≠ none :=
    view_get?_ne_none (by rw [ha]; exact Option.some_ne_none a)
  obtain ⟨a', ha'⟩ := Option.ne_none_iff_exists'.1 hthere
  have hrow : accountRow (some i) (view Db.apply db own) = some a' := ha'
  refine ⟨accountLock a'.id, ?_, i, rfl, by rw [Table.key_of_get? ha']⟩
  simp [EnterpriseSystem.lockAccount, hrow]

namespace TransferAt

variable {ctx : Context} {args : TransactionArgs} {s : Stage} {own : List Write}
  {held : List LockKey} {db db' : Db}

theorem stable : Stable custody (TransferAt ctx args s) := by
  intro own held db db' h hrely _
  refine { h with replaces := h.replaces.stable hrely, checked := ?_ }
  cases s with
  | entering | limited => trivial
  | sourced | inserted =>
    exact ⟨h.checked.1.stable hrely, h.checked.2.imp id fun hd => hd.stable hrely⟩

/-- A statement that asks for nothing new. -/
theorem point (h : TransferAt ctx args s own held db) {o : Stmt Db Write LockKey PgError}
    (ho : ∀ l ∈ o.locks (view Db.apply db own), l ∈ held ∨ s.Asks ctx args l) :
    TransferPoint ctx args o own held db := ⟨s, h, ho⟩

/-- Rows of other tables do not move a transfer on. -/
theorem append (h : TransferAt ctx args s own held db) {ws : List Write}
    (hws : ∀ w ∈ ws, w.Unbooked) {ks : List LockKey} {s' : Stage}
    (hholds : s'.Holds ctx args (held ++ ks)) (hchecked : s'.Checked args db) :
    TransferAt ctx args s' (own ++ ws) (held ++ ks) db where
  replaces := h.replaces.append hws ks
  paired := by
    rw [posted_append_eq, posted_eq_nil hws, updated_append, updated_eq_nil hws, List.append_nil,
      List.append_nil]
    exact h.paired
  holds := hholds
  checked := hchecked

/-- The locks of rows it inserts do not move it on either. -/
theorem holds_append (h : TransferAt ctx args .inserted own held db) {ks : List LockKey}
    (hks : ∀ l ∈ ks, LocksAccount args.sourceAccount l ∨ LocksAccount args.destAccount l ∨
      LocksGenerated ctx l) : Stage.Holds ctx args .inserted (held ++ ks) := by
  obtain ⟨hbucket, ⟨l, hl, hsource⟩, hall⟩ := h.holds
  refine ⟨List.mem_append_left _ hbucket, ⟨l, List.mem_append_left _ hl, hsource⟩, fun k hk => ?_⟩
  rcases List.mem_append.1 hk with hk | hk
  · exact hall k hk
  · rcases hks k hk with hk | hk | hk
    · exact Or.inr (Or.inl hk)
    · exact Or.inr (Or.inr (Or.inl hk))
    · exact Or.inr (Or.inr (Or.inr (Or.inr hk)))

/-- A statement that locks an account and writes nothing. -/
theorem lock (h : TransferAt ctx args .inserted own held db) {ks : List LockKey}
    (hks : ∀ l ∈ ks, LocksAccount args.sourceAccount l ∨ LocksAccount args.destAccount l ∨
      LocksGenerated ctx l) : TransferAt ctx args .inserted (own ++ []) (held ++ ks) db :=
  h.append (by simp) (h.holds_append hks) h.checked

end TransferAt

/-! ## The functions -/

/-- A statement that writes rows of the logs or of `transactions` and locks rows
it inserts. -/
def Unremarkable (ctx : Context) (o : Stmt Db Write LockKey PgError) : Prop :=
  (∀ db, ∀ w ∈ o.writes db, w.Unbooked) ∧ ∀ db, ∀ l ∈ o.locks db, LocksGenerated ctx l

theorem each_logSecurityEvent {ctx : Context} {n : ℕ} (hn : n < Context.generated) (eventType : SecurityEventType)
    (severity : Severity) (description : String) (metadata : JsonObject) (actionTaken : String) :
    Call.Each (fun o => ∀ db, ∀ l ∈ o.locks db, LocksGenerated ctx l) (fun _ => True)
      (logSecurityEvent ctx (ctx.uuid n) eventType severity description metadata actionTaken) := by
  refine Call.Each.bind (Call.each_evaluate fun _ _ => trivial) fun uid =>
    Call.each_statement ?_ fun _ _ _ => trivial
  intro db l hl
  exact ⟨_, n, by decide, hn, List.mem_singleton.1 hl⟩

theorem each_detectBulkOperation {ctx : Context} {n : ℕ} (hn : n < Context.generated) (tableName op : String) :
    Call.Each (Unremarkable ctx) (fun _ => True)
      (detectBulkOperation ctx (ctx.uuid n) tableName op) := by
  have hlocks : Call.Each (fun o => ∀ db, ∀ l ∈ o.locks db, LocksGenerated ctx l) (fun _ => True)
      (detectBulkOperation ctx (ctx.uuid n) tableName op) :=
    Call.Each.bind (Call.each_evaluate fun _ _ => trivial) fun uid =>
      Call.Each.bind (Call.each_select fun _ _ hl => nomatch hl) fun count =>
      Call.Each.onlyIf fun _ => Call.Each.bind (each_logSecurityEvent hn _ _ _ _ _) fun _ =>
      Call.each_pure _
  exact (((quiet_detectBulkOperation _ _ _ _).mono (fun _ => Write.Quiet.unbooked)
    fun _ _ => trivial).each).and hlocks

theorem each_writeAuditLog {ctx : Context} {n : ℕ} (hn : n < Context.generated) (action : AuditAction) (tableName : String)
    (recordId : Option Uuid) (oldData newData : Option JsonObject) :
    Call.Each (Unremarkable ctx) (fun _ => True)
      (writeAuditLog ctx (ctx.uuid n) action tableName recordId oldData newData) := by
  have hlocks : Call.Each (fun o => ∀ db, ∀ l ∈ o.locks db, LocksGenerated ctx l) (fun _ => True)
      (writeAuditLog ctx (ctx.uuid n) action tableName recordId oldData newData) := by
    refine Call.Each.bind (Call.each_select fun _ _ hl => nomatch hl) fun prevHash =>
      Call.Each.bind (Call.each_evaluate fun _ _ => trivial) fun uid =>
      Call.each_statement ?_ fun _ _ _ => trivial
    intro db l hl
    exact ⟨_, n, by decide, hn, List.mem_singleton.1 hl⟩
  exact (((quiet_writeAuditLog _ _ _ _ _ _ _).mono (fun _ => Write.Quiet.unbooked)
    fun _ _ => trivial).each).and hlocks

theorem each_validateBalance {ctx : Context} {n : ℕ} (hn : n < Context.generated) (old : Account) (balance : Money) :
    Call.Each (Unremarkable ctx) (fun _ => True) (validateBalance ctx (ctx.uuid n) old balance) :=
  Call.Each.bind (Call.Each.onlyIf fun _ => trivial) fun _ =>
    Call.Each.onlyIf fun _ => Call.Each.bind (each_writeAuditLog hn _ _ _ _ _) fun _ =>
    Call.each_pure _

section

variable {ctx : Context} {args : TransactionArgs} {own : List Write} {held : List LockKey} {db : Db}

/-- **Unremarkable calls** leave a transfer where it is, with whatever else is known
of the accounts it has written and the locks it holds. -/
theorem along_unremarkable {α : Type} {p : Rpc α} (hp : p.Each (Unremarkable ctx) fun _ => True)
    {X : List Write → List LockKey → Db → Prop} (hX : Stable custody X)
    (happend : ∀ {own held db ws ks}, X own held db → (∀ w ∈ ws, Write.Unbooked w) →
      X (own ++ ws) (held ++ ks) db)
    (h : TransferAt ctx args .inserted own held db ∧ X own held db) :
    Call.Along Db.apply custody (TransferPoint ctx args) p
      (fun _ own held db => TransferAt ctx args .inserted own held db ∧ X own held db)
      own held db := by
  refine Call.along_of_each (A := fun own held db =>
    TransferAt ctx args .inserted own held db ∧ X own held db) hp ?_ ?_ h
  · exact fun h hrely hinv => ⟨TransferAt.stable h.1 hrely hinv, hX h.2 hrely hinv⟩
  · intro o own held db ho h
    have hlocks := ho.2 (view Db.apply db own)
    have hholds := h.1.holds_append fun l hl => Or.inr (Or.inr (hlocks l hl))
    exact ⟨h.1.point fun l hl => Or.inr (Or.inr (hlocks l hl)),
      h.1.append (ho.1 _) hholds h.1.checked, happend h.2 (ho.1 _)⟩

theorem along_quietly {α : Type} {p : Rpc α} (hp : p.Each (Unremarkable ctx) fun _ => True)
    (h : TransferAt ctx args .inserted own held db) :
    Call.Along Db.apply custody (TransferPoint ctx args) p
      (fun _ => TransferAt ctx args .inserted) own held db :=
  Call.along_mono (along_unremarkable (X := fun _ _ _ => True) hp (fun _ _ _ => trivial)
    (fun _ _ => trivial) ⟨h, trivial⟩) fun _ _ _ _ h => h.1

/-- **The rate limit** leaves a call with the lock on its bucket. -/
theorem along_checkRateLimit {maxTokens refillRate : Option Int4}
    (h : TransferAt ctx args .entering own held db) :
    Call.Along Db.apply custody (TransferPoint ctx args)
      (checkRateLimit ctx (some ("txn:" ++ formatUuid (authOrgId ctx))) maxTokens refillRate)
      (fun _ => TransferAt ctx args .limited) own held db := by
  refine Call.along_bind ?_
  refine Call.along_statement fun db₁ hrely hinv => ?_
  have h₁ := TransferAt.stable h hrely hinv
  have hempty : held = [] := h₁.holds
  subst hempty
  cases hspend : spendable (some ("txn:" ++ formatUuid (authOrgId ctx))) (view Db.apply db₁ own) with
  | some r =>
    -- the update has found a token
    have hkey : r.key = "txn:" ++ formatUuid (authOrgId ctx) :=
      Table.key_of_get? (Option.filter_eq_some_iff.1 hspend).1
    have hlock : (((some r).map fun r => LockKey.rateLimit r.key).toList) = [transferBucket ctx] := by
      simp [transferBucket, hkey]
    refine ⟨h₁.point fun l hl => Or.inr ?_, fun ws tokens hexec => ?_, fun _ _ => trivial⟩
    · simp only [hspend, hlock] at hl
      exact List.mem_singleton.1 hl
    · obtain ⟨r', -, hexec⟩ := bind_eq_ok.1 hexec
      cases hexec
      rw [hlock]
      exact h₁.append (by simp [Write.Unbooked, Write.account?, Write.ledgerEntry?])
        (by simp [Stage.Holds]) trivial
  | none =>
    -- the insertion creates the row, or refills it, or leaves it empty
    refine ⟨h₁.point fun l hl => ?_, fun ws tokens hexec => ?_, fun _ _ => trivial⟩
    · simp only [hspend] at hl
      exact absurd hl List.not_mem_nil
    cases hexec
    rw [List.append_nil, Option.map_none, Option.toList_none, List.append_nil]
    refine Call.along_bind ?_
    refine Call.along_statement fun db₂ hrely hinv => ?_
    have h₂ := TransferAt.stable h₁ hrely hinv
    refine ⟨h₂.point fun l hl => Or.inr (List.mem_singleton.1 hl), fun ws _ hexec => ?_,
      fun _ _ => trivial⟩
    have hbooks : ∀ w ∈ ws, w.Unbooked := by
      obtain ⟨new, -, hexec⟩ := bind_eq_ok.1 hexec
      split at hexec
      · cases hexec
        simp [Write.Unbooked, Write.account?, Write.ledgerEntry?]
      · obtain ⟨r', -, hexec⟩ := bind_eq_ok.1 hexec
        cases hexec
        simp [Write.Unbooked, Write.account?, Write.ledgerEntry?]
    have hnext : TransferAt ctx args .limited (own ++ ws) [transferBucket ctx] db₂ :=
      h₂.append hbooks (by simp [Stage.Holds]) trivial
    refine Call.along_bind ?_
    refine Call.along_select fun db₃ hrely hinv => ?_
    have h₃ := TransferAt.stable hnext hrely hinv
    exact ⟨h₃.point (fun l hl => absurd hl List.not_mem_nil), h₃⟩

/-- **The checks** find the accounts and lock the source. -/
theorem along_checkTransfer (h : TransferAt ctx args .limited own held db) :
    Call.Along Db.apply custody (TransferPoint ctx args) (checkTransfer args)
      (fun _ => TransferAt ctx args .sourced) own held db := by
  refine Call.along_bind ?_
  refine Call.along_select fun db₁ hrely hinv => ?_
  have h₁ := TransferAt.stable h hrely hinv
  refine ⟨h₁.point (fun l hl => nomatch hl), ?_⟩
  refine Call.along_bind ?_
  refine Call.along_onlyIf (fun _ => trivial) fun hfound => ?_
  have hsource := belongs_of_activeAccount h₁.replaces hfound
  refine Call.along_bind ?_
  refine Call.along_select fun db₂ hrely hinv => ?_
  have h₂ := TransferAt.stable h₁ hrely hinv
  have hsource := hsource.stable hrely
  refine ⟨h₂.point (fun l hl => nomatch hl), ?_⟩
  refine Call.along_bind ?_
  refine Call.along_onlyIf (fun _ => trivial) fun hfound => ?_
  have hdest : args.destAccount = none ∨ Belongs args args.destAccount db₂ := by
    by_cases hnone : args.destAccount = none
    · exact Or.inl hnone
    · exact Or.inr (belongs_of_activeAccount h₂.replaces fun hc => hfound ⟨hnone, hc⟩)
  refine Call.along_bind ?_
  refine Call.along_statement fun db₃ hrely hinv => ?_
  have h₃ := TransferAt.stable h₂ hrely hinv
  have hsource := hsource.stable hrely
  refine ⟨h₃.point fun l hl => Or.inr (locksAccount_lockAccount hl), fun ws locked hexec => ?_,
    fun _ _ => trivial⟩
  cases hexec
  refine Call.along_onlyIf (fun _ => trivial) fun _ => ?_
  obtain ⟨hbucket, hall⟩ := h₃.holds
  refine h₃.append (by simp) ⟨List.mem_append_left _ hbucket, ?_, fun l hl => ?_⟩
    ⟨hsource, hdest.imp id fun hd => hd.stable hrely⟩
  · obtain ⟨l, hl, hlock⟩ := hsource.lockAccount own
    exact ⟨l, List.mem_append_right _ hl, hlock⟩
  · rcases List.mem_append.1 hl with hl | hl
    · exact Or.inl (hall l hl)
    · exact Or.inr (locksAccount_lockAccount hl)

/-- **The insertion into `transactions`** locks the key. -/
theorem along_insertTransaction (h : TransferAt ctx args .sourced own held db) :
    Call.Along Db.apply custody (TransferPoint ctx args) (insertTransaction ctx args)
      (fun _ => TransferAt ctx args .inserted) own held db := by
  refine Call.along_bind ?_
  refine Call.along_evaluate (fun uid _ => ?_) fun _ _ => trivial
  refine Call.along_bind ?_
  refine Call.along_statement fun db₁ hrely hinv => ?_
  have h₁ := TransferAt.stable h hrely hinv
  have hlocks : ∀ l ∈ LockKey.row .transactions (ctx.uuid 0) ::
      (args.idempotencyKey.map LockKey.idempotencyKey).toList,
      args.idempotencyKey.map .idempotencyKey = some l ∨ LocksGenerated ctx l := by
    intro l hl
    rcases List.mem_cons.1 hl with rfl | hl
    · exact Or.inr ⟨_, 0, by decide, by decide, rfl⟩
    · exact Or.inl (Option.mem_toList.1 hl)
  refine ⟨h₁.point fun l hl => Or.inr (hlocks l hl), fun ws t hexec => ?_, fun _ _ => trivial⟩
  have hbooks : ∀ w ∈ ws, w.Unbooked := by
    obtain ⟨t, -, hexec⟩ := bind_eq_ok.1 hexec
    repeat' split at hexec
    all_goals cases hexec
    simp [Write.Unbooked, Write.account?, Write.ledgerEntry?]
  obtain ⟨hbucket, ⟨l, hl, hsource⟩, hall⟩ := h₁.holds
  have hnext : TransferAt ctx args .inserted (own ++ ws) (held ++ _ :: _) db₁ :=
    h₁.append hbooks ⟨List.mem_append_left _ hbucket, ⟨l, List.mem_append_left _ hl, hsource⟩, by
      intro k hk
      rcases List.mem_append.1 hk with hk | hk
      · exact (hall k hk).imp id Or.inl
      · exact Or.inr (Or.inr (Or.inr (hlocks k hk)))⟩ h₁.checked
  exact Call.along_bind (Call.along_mono (along_quietly (each_detectBulkOperation (by decide) _ _) hnext)
    fun _ _ _ _ h => h)

/-- Two locks on one account are the same. -/
theorem LocksAccount.eq {id : Option Uuid} {l l' : LockKey} (h : LocksAccount id l)
    (h' : LocksAccount id l') : l = l' := by
  obtain ⟨i, rfl, rfl⟩ := h
  obtain ⟨i', hi, rfl⟩ := h'
  cases hi
  rfl

/-- The source is locked already, and the destination may be asked for. -/
theorem TransferAt.asks_account (h : TransferAt ctx args .inserted own held db) {id : Option Uuid}
    (hid : id = args.sourceAccount ∨ id = args.destAccount) {l : LockKey} (hl : LocksAccount id l) :
    l ∈ held ∨ Stage.Asks ctx args .inserted l := by
  rcases hid with rfl | rfl
  · obtain ⟨-, ⟨l', hl', hsource⟩, -⟩ := h.holds
    exact Or.inl (hl.eq hsource ▸ hl')
  · exact Or.inr (Or.inl hl)

/-- **An update of a balance** writes an account that is locked, if it finds one. -/
theorem along_updateBalance {site : ℕ} (hsite : site + 1 < Context.generated) {id : Option Uuid}
    {f : Numeric → Numeric} (hid : id = args.sourceAccount ∨ id = args.destAccount)
    (h : TransferAt ctx args .inserted own held db) :
    Call.Along Db.apply custody (TransferPoint ctx args) (updateBalance ctx site id f)
      (fun b own held db => TransferAt ctx args .inserted own held db ∧
        (b = none ∨ ∃ a ∈ updated own, id = some a.id)) own held db := by
  refine Call.along_bind ?_
  refine Call.along_statement fun db₁ hrely hinv => ?_
  have h₁ := TransferAt.stable h hrely hinv
  have hlocks : ∀ l ∈ lockAccount id (view Db.apply db₁ own),
      LocksAccount args.sourceAccount l ∨ LocksAccount args.destAccount l ∨ LocksGenerated ctx l := by
    intro l hl
    rcases hid with rfl | rfl
    · exact Or.inl (locksAccount_lockAccount hl)
    · exact Or.inr (Or.inl (locksAccount_lockAccount hl))
  refine ⟨h₁.point fun l hl => h₁.asks_account hid (locksAccount_lockAccount hl),
    fun ws row hexec => ?_, fun _ _ => trivial⟩
  cases hrow : accountRow id (view Db.apply db₁ own) with
  | none =>
    simp only [hrow] at hexec
    cases hexec
    have hnext := h₁.lock hlocks
    exact Call.along_bind (Call.along_mono (along_quietly (each_detectBulkOperation hsite _ _) hnext)
      fun _ _ _ _ h => ⟨h, Or.inl rfl⟩)
  | some a =>
    simp only [hrow] at hexec
    obtain ⟨stored, -, hexec⟩ := bind_eq_ok.1 hexec
    obtain ⟨balance, -, hexec⟩ := bind_eq_ok.1 hexec
    cases hexec
    have hnext := h₁.lock hlocks
    obtain ⟨i, rfl, hget⟩ := Option.bind_eq_some_iff.1 hrow
    have hai : a.id = i := Table.key_of_get? hget
    have hlocked : accountLock a.id ∈ held ++ lockAccount (some i) (view Db.apply db₁ own) := by
      refine List.mem_append_right _ ?_
      simp [lockAccount, hrow]
    have hfound : ∃ b, db₁.accounts.get? a.id = some b ∧ SameStanding b a := by
      rw [hai]
      exact h₁.replaces.get?_view (fun _ => ⟨rfl, rfl⟩) hget
    refine Call.along_bind ?_
    refine Call.along_mono (along_unremarkable (X := fun _ held db => accountLock a.id ∈ held ∧
      ∃ b, db.accounts.get? a.id = some b ∧ SameStanding b a) (each_validateBalance (by omega) _ _) ?_ ?_
      ⟨hnext, hlocked, hfound⟩) ?_
    · rintro own held db db' ⟨hlock, b, hb, hstanding⟩ hrely -
      exact ⟨hlock, b, (hrely.1 _ hlock).trans hb, hstanding⟩
    · rintro own held db ws ks ⟨hlock, hrow⟩ -
      exact ⟨List.mem_append_left _ hlock, hrow⟩
    rintro - own held db ⟨h, hlock, hrow⟩
    refine Call.along_bind ?_
    refine Call.along_evaluate (fun checked _ => ?_) fun _ _ => trivial
    refine Call.along_bind ?_
    refine Call.along_statement fun db₂ hrely hinv => ?_
    have h₂ := TransferAt.stable h hrely hinv
    refine ⟨h₂.point (fun l hl => nomatch hl), fun ws _ hexec => ?_, fun _ _ => trivial⟩
    cases hexec
    obtain ⟨b, hb, hstanding⟩ := hrow
    have hnext : TransferAt ctx args .inserted
        (own ++ [.account { a with balance := checked, updatedAt := ctx.now }]) (held ++ []) db₂ := by
      rw [List.append_nil]
      exact {
        replaces := h₂.replaces.append_account hlock ⟨b, (hrely.1 _ hlock).trans hb, hstanding⟩
        paired := by
          intro e he
          rw [posted_append_eq, List.mem_append] at he
          obtain ⟨a', ha', hid⟩ := h₂.paired e (he.resolve_right fun hc => nomatch hc)
          exact ⟨a', by rw [updated_append]; exact List.mem_append_left _ ha', hid⟩
        holds := h₂.holds
        checked := h₂.checked }
    have hwritten : ∃ a' ∈ updated (own ++
        [.account { a with balance := checked, updatedAt := ctx.now }]), some i = some a'.id := by
      rw [updated_append]
      exact ⟨_, List.mem_append_right _ (List.mem_singleton.2 rfl), by rw [← hai]⟩
    refine Call.along_bind ?_
    refine Call.along_mono (along_unremarkable (X := fun own _ _ =>
      ∃ a' ∈ updated own, some i = some a'.id) (each_detectBulkOperation hsite _ _)
      (fun h _ _ => h) ?_ ⟨hnext, hwritten⟩) fun _ _ _ _ h => ⟨h.1, Or.inr h.2⟩
    rintro own held db ws ks ⟨a', ha', hid⟩ -
    exact ⟨a', by rw [updated_append]; exact List.mem_append_left _ ha', hid⟩

/-- **The insertion of an entry** needs a balance, so its account has been written. -/
theorem along_insertLedgerEntry {n : ℕ} (hn : n < Context.generated) {transactionId : Uuid} {accountId : Option Uuid}
    {entryType : EntryType} {balance : Option Money} (h : TransferAt ctx args .inserted own held db)
    (hwritten : balance = none ∨ ∃ a ∈ updated own, accountId = some a.id) :
    Call.Along Db.apply custody (TransferPoint ctx args)
      (insertLedgerEntry ctx (ctx.uuid n) args transactionId accountId entryType balance)
      (fun _ => TransferAt ctx args .inserted) own held db := by
  refine Call.along_bind ?_
  refine Call.along_evaluate (fun uid _ => ?_) fun _ _ => trivial
  refine Call.along_statement fun db₁ hrely hinv => ?_
  have h₁ := TransferAt.stable h hrely hinv
  have hlocks : ∀ l ∈ [LockKey.row .ledgerEntries (ctx.uuid n)], LocksGenerated ctx l :=
    fun l hl => ⟨_, n, by decide, hn, List.mem_singleton.1 hl⟩
  refine ⟨h₁.point fun l hl => Or.inr (Or.inr (hlocks l hl)), fun ws _ hexec => ?_,
    fun _ _ => trivial⟩
  obtain ⟨e, hnew, hexec⟩ := bind_eq_ok.1 hexec
  repeat' split at hexec
  all_goals cases hexec
  have hrow := newLedgerEntry_ok hnew
  obtain ⟨a, ha, hid⟩ : ∃ a ∈ updated own, accountId = some a.id := by
    refine hwritten.resolve_left fun hnone => ?_
    rw [hnone] at hrow
    cases hrow.balanceAfter
  exact {
    replaces := by
      intro a' ha'
      rw [updated_append, List.mem_append] at ha'
      obtain ⟨hlock, hstanding⟩ := h₁.replaces a' (ha'.resolve_right fun hc => by cases hc)
      exact ⟨List.mem_append_left _ hlock, hstanding⟩
    paired := by
      intro e' he'
      rw [posted_append_eq, List.mem_append] at he'
      rw [updated_append]
      rcases he' with he' | he'
      · obtain ⟨a', ha', hid'⟩ := h₁.paired e' he'
        exact ⟨a', List.mem_append_left _ ha', hid'⟩
      · obtain rfl : e' = e := List.mem_singleton.1 he'
        exact ⟨a, List.mem_append_left _ ha, Option.some.inj (hid.symm.trans hrow.accountId)⟩
    holds := h₁.holds_append fun l hl => Or.inr (Or.inr (hlocks l hl))
    checked := h₁.checked }

theorem along_postEntry {site : ℕ} (hsite : site + 2 < Context.generated) {transactionId : Uuid} {accountId : Option Uuid}
    {entryType : EntryType} {amount : Numeric}
    (hid : accountId = args.sourceAccount ∨ accountId = args.destAccount)
    (h : TransferAt ctx args .inserted own held db) :
    Call.Along Db.apply custody (TransferPoint ctx args)
      (postEntry ctx site args transactionId accountId entryType amount)
      (fun _ => TransferAt ctx args .inserted) own held db :=
  Call.along_bind (Call.along_mono (along_updateBalance (by omega) hid h)
    fun _ _ _ _ h => along_insertLedgerEntry hsite h.1 h.2)

theorem along_postTransfer (h : TransferAt ctx args .sourced own held db) :
    Call.Along Db.apply custody (TransferPoint ctx args) (postTransfer ctx args)
      (fun _ => TransferAt ctx args .inserted) own held db := by
  refine Call.along_bind (Call.along_mono (along_insertTransaction h) ?_)
  rintro t own held db h
  refine Call.along_bind ?_
  refine Call.along_evaluate (fun amount _ => ?_) fun _ _ => trivial
  refine Call.along_bind (Call.along_mono (along_postEntry (by decide) (Or.inl rfl) h) ?_)
  rintro - own held db h
  refine Call.along_bind ?_
  refine Call.along_mono (Call.along_onlyIf (fun _ => along_postEntry (by decide) (Or.inr rfl) h) fun _ => h) ?_
  rintro - own held db h
  exact Call.along_bind (Call.along_mono (along_quietly (each_writeAuditLog (by decide) _ _ _ _ _) h)
    fun _ _ _ _ h => h)

end

/-- What a transfer has written when it returns. -/
def TransferEnds : Assertion Db Write LockKey := fun own held db =>
  Replaces SameStanding own held db ∧ ∀ e ∈ posted own, ∃ a ∈ updated own, a.id = e.accountId

theorem TransferAt.ends {ctx : Context} {args : TransactionArgs} {s : Stage} {own : List Write}
    {held : List LockKey} {db : Db} (h : TransferAt ctx args s own held db) :
    TransferEnds own held db :=
  ⟨h.replaces, h.paired⟩

theorem stable_transferEnds : Stable custody TransferEnds :=
  fun h hrely _ => ⟨h.1.stable hrely, h.2⟩

/-- **A transfer is at one of the stages** before each of its statements. -/
theorem along_processTransaction (ctx : Context) (args : TransactionArgs) (db : Db) :
    Call.Along Db.apply custody (TransferPoint ctx args) (processTransaction ctx args)
      (fun _ => TransferEnds) [] [] db := by
  have hstart : TransferAt ctx args .entering [] [] db := {
    replaces := .nil _ _
    paired := fun _ he => nomatch he
    holds := rfl
    checked := trivial }
  refine Call.along_bind (Call.along_mono (along_checkRateLimit hstart) ?_)
  rintro allowed own held db h
  refine Call.along_bind ?_
  refine Call.along_onlyIf (fun _ => trivial) fun _ => ?_
  refine Call.along_bind ?_
  refine Call.along_select fun db₁ hrely hinv => ?_
  have h₁ := TransferAt.stable h hrely hinv
  refine ⟨h₁.point (fun l hl => nomatch hl), ?_⟩
  split
  · exact h₁.ends
  · exact Call.along_bind (Call.along_mono (along_checkTransfer h₁) fun _ _ _ _ h =>
      Call.along_mono (along_postTransfer h) fun _ _ _ _ h => h.ends)

/-- A transfer keeps to the discipline. -/
theorem safe_custody (ctx : Context) (args : TransactionArgs) (db : Db) :
    Call.Safe Db.apply custody (processTransaction ctx args) db :=
  Call.wp_mono (fun _ _ _ _ h => h.1.committable fun _ _ hK => hK.1)
    (Call.wp_of_along (along_processTransaction ctx args db))

end EnterpriseSystem
