import EnterpriseSystem.Base.Waiting
import EnterpriseSystem.Database.Custody

/-!
# Freezing an account while a transfer is going on

A transfer looks at the status of its accounts once, without a lock, and does not
look again when it has their rows.  A status that is committed in between is not
seen.

* `updateStatus` — `UPDATE public.accounts SET status = … WHERE …` by the service
  role, row by row.
* `PostsActive` — in the history of a run, whenever a call that posted an entry has
  updated the balance of its account, the account was active.
* `Spares` — a transfer that will not write an account it finds inactive from now
  on: the check is still to come.
* `FreezesIdle` — a status update does not commit an account as inactive under a
  transfer that will write it all the same.
* `posts_active` — the result for every interleaving whose commits meet that;
  `not_posts_active` — an account that is frozen between the check and the update.
-/

namespace EnterpriseSystem

open Relational Concurrency

/-! ## Updating the status -/

/-- The part of the `UPDATE` that is about one row: it is locked, compared with the
condition again, and written after the trigger. -/
def updateStatusRow (ctx : Context) (condition : Account → Bool) (status : AccountStatus)
    (id : Uuid) : Rpc Unit := do
  let row ← statement (lockAccount (some id)) fun db =>
    .ok ([], (accountRow (some id) db).filter condition)
  match row with
  | none => return ()
  | some a =>
    validateBalance ctx (ctx.uuid 0) a a.balance.1
    statement (fun _ => []) fun _ => .ok ([.account { a with status }], ())

/-- The rows an `UPDATE` has found, one after the other. -/
def updateStatusRows (ctx : Context) (condition : Account → Bool) (status : AccountStatus) :
    List Uuid → Rpc Unit
  | [] => return ()
  | id :: ids => do
    updateStatusRow ctx condition status id
    updateStatusRows ctx condition status ids

/-- `UPDATE public.accounts SET status = … WHERE …`, with its triggers. -/
def updateStatus (ctx : Context) (condition : Account → Bool) (status : AccountStatus) :
    Rpc Unit := do
  let ids ← select fun db => (db.accounts.rows.filter condition).map (·.id)
  updateStatusRows ctx condition status ids
  detectBulkOperation ctx (ctx.uuid 0) "accounts" "UPDATE"

/-- A transfer, or an update of the status. -/
inductive StatusCall where
  | transfer (ctx : Context) (args : TransactionArgs)
  | updateStatus (ctx : Context) (condition : Account → Bool) (status : AccountStatus)

/-- The call as a program that returns nothing. -/
def StatusCall.rpc : StatusCall → Rpc Unit
  | transfer ctx args => do
    let _ ← processTransaction ctx args
  | updateStatus ctx condition status => EnterpriseSystem.updateStatus ctx condition status

def StatusCall.IsTransfer (c : StatusCall) : Prop := ∃ ctx args, c = .transfer ctx args

/-- An account with the organization of another. -/
def SameOrganization (a b : Account) : Prop := b.orgId = a.orgId

section

variable {ctx : Context} {condition : Account → Bool} {status : AccountStatus} {own : List Write}
  {held : List LockKey} {db : Db}

/-- What an update of the status has written: accounts, and no entry. -/
def StatusEnds : Assertion Db Write LockKey := fun own held db =>
  Replaces SameOrganization own held db ∧ posted own = []

theorem robust_statusEnds : Robust custody Write.Unbooked StatusEnds where
  stable h hrely _ := ⟨h.1.stable hrely, h.2⟩
  append h hws := ⟨h.1.append hws _, by
    rw [posted_append_eq, posted_eq_nil hws, h.2]
    rfl⟩

theorem wp_updateStatusRow {id : Uuid} (h : StatusEnds own held db) :
    Call.wp Db.apply custody (updateStatusRow ctx condition status id) (fun _ => StatusEnds)
      own held db := by
  rw [updateStatusRow, Call.wp_bind, Call.wp_statement]
  intro db₁ hrely hinv
  have h₁ := robust_statusEnds.stable h hrely hinv
  refine ⟨fun ws row hexec => ?_, fun _ _ => trivial⟩
  cases hexec
  have hnext : StatusEnds (own ++ []) (held ++ lockAccount (some id) (view Db.apply db₁ own)) db₁ :=
    robust_statusEnds.append h₁ (by simp)
  cases hrow : (accountRow (some id) (view Db.apply db₁ own)).filter condition with
  | none => exact hnext
  | some a =>
    have hrow := (Option.filter_eq_some_iff.1 hrow).1
    have hid : a.id = id := Table.key_of_get? hrow
    have hlocked : accountLock a.id ∈ held ++ lockAccount (some id) (view Db.apply db₁ own) := by
      refine List.mem_append_right _ ?_
      simp [lockAccount, hrow]
    have hfound : ∃ b, db₁.accounts.get? a.id = some b ∧ SameOrganization b a := by
      rw [hid]
      exact h₁.1.get?_view (fun _ => rfl) hrow
    -- the row stays while the call holds its lock
    have hrobust : Robust custody Write.Unbooked fun own held db => StatusEnds own held db ∧
        accountLock a.id ∈ held ∧ ∃ b, db.accounts.get? a.id = some b ∧ SameOrganization b a := {
      stable := by
        rintro own held db db' ⟨h, hlock, b, hb, horg⟩ hrely hinv
        exact ⟨robust_statusEnds.stable h hrely hinv, hlock, b, (hrely.1 _ hlock).trans hb, horg⟩
      append := by
        rintro own held db ws ks ⟨h, hlock, hrow⟩ hws
        exact ⟨robust_statusEnds.append h hws, List.mem_append_left _ hlock, hrow⟩ }
    show Call.wp Db.apply custody (_ >>= _) _ _ _ _
    rw [Call.wp_bind]
    refine Call.wp_mono ?_ (hrobust.wp (within_validateBalance (fun _ => Write.Quiet.unbooked)
      _ _ _ _) ⟨hnext, hlocked, hfound⟩)
    rintro - own held db h
    rw [Call.wp_statement]
    intro db₂ hrely hinv
    obtain ⟨h₂, hlock, hrow⟩ := hrobust.stable h hrely hinv
    refine ⟨fun ws _ hexec => ?_, fun _ _ => trivial⟩
    cases hexec
    rw [List.append_nil]
    refine ⟨h₂.1.append_account hlock hrow, ?_⟩
    rw [posted_append_eq, h₂.2]
    rfl

theorem wp_updateStatusRows (ids : List Uuid) (h : StatusEnds own held db) :
    Call.wp Db.apply custody (updateStatusRows ctx condition status ids) (fun _ => StatusEnds)
      own held db := by
  induction ids generalizing own held db with
  | nil => exact h
  | cons id ids ih =>
    rw [updateStatusRows, Call.wp_bind]
    exact Call.wp_mono (fun _ _ _ _ h => ih h) (wp_updateStatusRow h)

/-- **An update of the status** writes accounts it has locked. -/
theorem wp_updateStatus (ctx : Context) (condition : Account → Bool) (status : AccountStatus)
    (db : Db) :
    Call.wp Db.apply custody (updateStatus ctx condition status) (fun _ => StatusEnds) [] [] db := by
  rw [updateStatus, Call.wp_bind, Call.wp_select]
  intro db' _ _
  rw [Call.wp_bind]
  refine Call.wp_mono (fun _ _ _ _ h => ?_) (wp_updateStatusRows _ ⟨.nil _ _, rfl⟩)
  exact robust_statusEnds.wp ((quiet_detectBulkOperation _ _ _ _).mono
    (fun _ => Write.Quiet.unbooked) fun _ _ => trivial) h

end

/-- Every call keeps to the discipline. -/
theorem StatusCall.safe (c : StatusCall) (db : Db) : Call.Safe Db.apply custody c.rpc db := by
  cases c with
  | transfer ctx args =>
    rw [rpc, Call.Safe, Call.wp_bind]
    exact safe_custody ctx args db
  | updateStatus ctx condition status =>
    exact Call.wp_mono (fun _ _ _ _ h => h.1.committable fun _ _ hK => hK)
      (wp_updateStatus ctx condition status db)

/-! ## The check that is still to come -/

/-- The account is there and active. -/
def IsActive (x : Uuid) (db : Db) : Prop := ∃ a, db.accounts.get? x = some a ∧ a.status = .active

/-- A write that is not to the account. -/
def Write.Not (x : Uuid) (w : Write) : Prop := ∀ a, w = .account a → a.id ≠ x

/-- As long as it finds the account inactive, the program does not write it. -/
def Spares {α : Type} (x : Uuid) (p : Prog (Stmt Db Write LockKey PgError) Stmt.Res α) : Prop :=
  p.WithinIf (fun db => ¬ IsActive x db) (Write.Not x) fun _ => True

section

variable {x : Uuid} {ctx : Context} {args : TransactionArgs}

theorem Write.Unbooked.not {w : Write} (h : w.Unbooked) : w.Not x := by
  rintro a rfl
  cases h.1

/-- A quiet function spares every account. -/
theorem withinIf_quiet {V : Db → Prop} {α : Type} {p : Rpc α} (hp : p.Quiet) :
    p.WithinIf V (Write.Not x) fun _ => True :=
  (hp.mono (fun _ hw => hw.unbooked.not) fun _ h => h).withinIf

/-- An update of another balance. -/
theorem withinIf_updateBalance {V : Db → Prop} {site : ℕ} {id : Option Uuid}
    {f : Numeric → Numeric} (hid : id ≠ some x) :
    (updateBalance ctx site id f).WithinIf V (Write.Not x) fun _ => True := by
  have hbulk : (detectBulkOperation ctx (ctx.uuid (site + 1)) "accounts" "UPDATE").WithinIf V
      (Write.Not x) fun _ => True := withinIf_quiet (quiet_detectBulkOperation _ _ _ _)
  refine Call.WithinIf.bind (Call.withinIf_statement fun db _ ws row hexec => ?_)
  cases hrow : accountRow id db with
  | none =>
    simp only [hrow] at hexec
    cases hexec
    exact ⟨(fun _ hw => by cases hw), Call.WithinIf.bind (hbulk.mono fun _ _ =>
      Call.withinIf_pure trivial)⟩
  | some a =>
    simp only [hrow] at hexec
    obtain ⟨stored, -, hexec⟩ := bind_eq_ok.1 hexec
    obtain ⟨balance, -, hexec⟩ := bind_eq_ok.1 hexec
    cases hexec
    obtain ⟨i, rfl, hget⟩ := Option.bind_eq_some_iff.1 hrow
    have hne : a.id ≠ x := by
      rw [Table.key_of_get? hget]
      exact fun hi => hid (congrArg some hi)
    refine ⟨(fun _ hw => by cases hw), Call.WithinIf.bind ?_⟩
    have hvalidate := within_validateBalance (P := Write.Not x) (fun _ hw => hw.unbooked.not) ctx
      (ctx.uuid site) a balance
    refine hvalidate.withinIf.mono fun _ _ => Call.WithinIf.bind ?_
    refine Call.withinIf_evaluate fun checked _ => Call.WithinIf.bind ?_
    refine Call.withinIf_statement fun db _ ws _ hexec => ?_
    cases hexec
    refine ⟨fun w hw => ?_, Call.WithinIf.bind (hbulk.mono fun _ _ => Call.withinIf_pure trivial)⟩
    rw [List.mem_singleton.1 hw]
    rintro _ ⟨⟩
    exact hne

theorem withinIf_postEntry {V : Db → Prop} {site : ℕ} {transactionId : Uuid}
    {accountId : Option Uuid} {entryType : EntryType} {amount : Numeric}
    (hid : accountId ≠ some x) :
    (postEntry ctx site args transactionId accountId entryType amount).WithinIf V (Write.Not x)
      fun _ => True := by
  refine Call.WithinIf.bind ((withinIf_updateBalance hid).mono fun balance _ => ?_)
  exact (within_insertLedgerEntry (P := Write.Not x) fun e _ a ha => nomatch ha).withinIf

/-- **A transfer between other accounts.** -/
theorem withinIf_postTransfer {V : Db → Prop} (hsource : args.sourceAccount ≠ some x)
    (hdest : args.destAccount ≠ some x) :
    (postTransfer ctx args).WithinIf V (Write.Not x) fun _ => True := by
  have hinsert : (insertTransaction ctx args).WithinIf V (Write.Not x) fun _ => True :=
    (within_insertTransaction (P := Write.Not x) (fun e a ha => nomatch ha)
      fun t _ a ha => nomatch ha).withinIf
  refine Call.WithinIf.bind (hinsert.mono fun t _ => Call.WithinIf.bind ?_)
  refine Call.withinIf_evaluate fun amount _ => Call.WithinIf.bind ?_
  refine (withinIf_postEntry hsource).mono fun _ _ => Call.WithinIf.bind ?_
  refine (Call.withinIf_onlyIf (fun _ => withinIf_postEntry hdest) fun _ => trivial).mono
    fun _ _ => Call.WithinIf.bind ?_
  exact (withinIf_quiet (quiet_writeAuditLog _ _ _ _ _ _ _)).mono fun _ _ =>
    Call.withinIf_pure trivial

/-- An inactive account is not found. -/
theorem activeAccount_isNone {orgId : Option Uuid} {db : Db} (h : ¬ IsActive x db) :
    (activeAccount orgId (some x) db).isNone = true := by
  rw [Option.isNone_iff_eq_none, Option.eq_none_iff_forall_ne_some]
  intro a ha
  obtain ⟨hrow, -, hactive⟩ := activeAccount_eq_some.1 ha
  exact h ⟨a, hrow, hactive⟩

/-- **The checks** do not pass while one of the accounts is inactive. -/
theorem withinIf_checkTransfer :
    (checkTransfer args).WithinIf (fun db => ¬ IsActive x db) (Write.Not x) fun _ =>
      args.sourceAccount ≠ some x ∧ args.destAccount ≠ some x := by
  refine Call.WithinIf.bind (Call.withinIf_select fun db hinactive => Call.WithinIf.bind ?_)
  refine Call.withinIf_onlyIf (fun _ => Call.withinIf_throw) fun hsource => ?_
  have hsource : args.sourceAccount ≠ some x := by
    intro hx
    rw [hx] at hsource
    exact hsource (activeAccount_isNone hinactive)
  refine Call.WithinIf.bind (Call.withinIf_select fun db hinactive => Call.WithinIf.bind ?_)
  refine Call.withinIf_onlyIf (fun _ => Call.withinIf_throw) fun hdest => ?_
  have hdest : args.destAccount ≠ some x := by
    intro hx
    rw [hx] at hdest
    exact hdest ⟨Option.some_ne_none x, activeAccount_isNone hinactive⟩
  refine Call.WithinIf.bind (Call.withinIf_statement fun db _ ws locked hexec => ?_)
  cases hexec
  exact ⟨(fun _ hw => by cases hw), Call.withinIf_onlyIf (fun _ => Call.withinIf_throw)
    fun _ => ⟨hsource, hdest⟩⟩

/-- **At its start** a transfer spares every account: its checks are still to come. -/
theorem spares_processTransaction (x : Uuid) (ctx : Context) (args : TransactionArgs) :
    (processTransaction ctx args).WithinIf (fun db => ¬ IsActive x db) (Write.Not x)
      fun _ => True := by
  refine Call.WithinIf.bind ((withinIf_quiet (quiet_checkRateLimit _ _ _ _)).mono fun allowed _ =>
    Call.WithinIf.bind (Call.withinIf_onlyIf (fun _ => Call.withinIf_throw) fun _ => ?_))
  refine Call.WithinIf.bind (Call.withinIf_select fun db _ => ?_)
  split
  · exact Call.withinIf_pure trivial
  · exact Call.WithinIf.bind (withinIf_checkTransfer.mono fun _ h => withinIf_postTransfer h.1 h.2)

end

/-! ## Histories -/

/-- The states of an interleaving of such calls. -/
abbrev StatusState (ι : Type) : Type 1 := State ι Db Write LockKey PgError Unit

section

variable {ι : Type}

/-- In this step, call `i` writes the account `x`. -/
def Updates (i : ι) (s : StatusState ι × ι × StatusState ι) (x : Uuid) : Prop :=
  s.2.1 = i ∧ ∃ ws, (s.2.2.calls i).own = (s.1.calls i).own ++ ws ∧ ∃ a ∈ updated ws, a.id = x

/-- In this step, call `i` commits the entry `e`. -/
def Posts (i : ι) (s : StatusState ι × ι × StatusState ι) (e : LedgerEntry) : Prop :=
  s.2.1 = i ∧ s.2.2.calls i = .committed () ∧ e ∈ posted (s.1.calls i).own

/-- Whenever a call that has posted an entry updated the balance of its account,
which it did, the account was active in its latest committed version. -/
def PostsActive (steps : List (StatusState ι × ι × StatusState ι)) : Prop :=
  ∀ i e, (∃ s ∈ steps, Posts i s e) → (∃ s ∈ steps, Updates i s e.accountId) ∧
    ∀ s ∈ steps, Updates i s e.accountId → IsActive e.accountId s.1.committed

/-- A status update does not commit an account as inactive while a transfer is in
progress that would write it all the same. -/
def FreezesIdle (calls : ι → StatusCall) (σ : StatusState ι) (i : ι) : Prop :=
  ¬ (calls i).IsTransfer → (σ.calls i).returned = some () →
    ∀ a ∈ updated (σ.calls i).own, a.status ≠ .active →
      ∀ j own held code, (calls j).IsTransfer → σ.calls j = .running own held code →
        Spares a.id code

/-- What a run has done so far. -/
structure FreezeHistory (calls : ι → StatusCall) (db : Db)
    (steps : List (StatusState ι × ι × StatusState ι)) (σ : StatusState ι) : Prop where
  guarded : ∀ i own held code, (calls i).IsTransfer → σ.calls i = .running own held code →
    ∀ x, Spares x code ∨ IsActive x σ.committed
  written : ∀ i, ∀ a ∈ updated (σ.calls i).own, ∃ s ∈ steps, Updates i s a.id
  active : ∀ i, (calls i).IsTransfer → ∀ s ∈ steps, ∀ x, Updates i s x → IsActive x s.1.committed
  entries : ∀ e ∈ σ.committed.ledgerEntries,
    e ∈ db.ledgerEntries ∨ ∃ i, ∃ s ∈ steps, Posts i s e
  posts : ∀ i e, (∃ s ∈ steps, Posts i s e) →
    (calls i).IsTransfer ∧ ∃ s ∈ steps, Updates i s e.accountId

variable [DecidableEq ι] {calls : ι → StatusCall} {db : Db} {σ σ' : StatusState ι}
  {steps : List (StatusState ι × ι × StatusState ι)}

/-- A transfer in a run is at one of its stages. -/
theorem along_of_reach
    (h : Reach (Step Db.apply) Always (State.initial db fun i => (calls i).rpc) σ) {i : ι}
    {ctx : Context} {args : TransactionArgs} (hi : calls i = .transfer ctx args) :
    (σ.calls i).Along Db.apply custody (TransferPoint ctx args) (fun _ => TransferEnds)
      σ.committed := by
  have hstart : Call.Along Db.apply custody (TransferPoint ctx args) (calls i).rpc
      (fun _ => TransferEnds) [] [] db := by
    rw [hi]
    exact Call.along_bind (along_processTransaction ctx args db)
  exact Discipline.along (p := fun i => (calls i).rpc) (Q := fun _ => TransferEnds) (i := i)
    trivial (fun i => (calls i).safe db) (fun _ => stable_transferEnds) hstart h

/-- It holds the locks of what it has written, and has kept the status. -/
theorem replaces_of_reach
    (h : Reach (Step Db.apply) Always (State.initial db fun i => (calls i).rpc) σ) {i : ι}
    (hi : (calls i).IsTransfer) {own : List Write} {held : List LockKey}
    {o : Stmt Db Write LockKey PgError}
    {k : o.Res → Prog (Stmt Db Write LockKey PgError) Stmt.Res (Except PgError Unit)}
    (hrun : σ.calls i = .running own held (.op o k)) :
    Replaces SameStanding own held σ.committed := by
  obtain ⟨ctx, args, hi⟩ := hi
  obtain ⟨⟨s, hs, -⟩, -⟩ :=
    along_of_reach h hi own held _ hrun σ.committed (custody.refl _ _) trivial
  exact hs.replaces

/-- An update of the status posts nothing. -/
theorem posted_of_reach
    (h : Reach (Step Db.apply) Always (State.initial db fun i => (calls i).rpc) σ) {i : ι}
    (hi : ¬ (calls i).IsTransfer) {own : List Write} {held : List LockKey}
    (hrun : σ.calls i = .running own held (.ret (.ok ()))) : posted own = [] := by
  cases hc : calls i with
  | transfer ctx args => exact absurd ⟨ctx, args, hc⟩ hi
  | updateStatus ctx condition status =>
    have hstart : Call.Along Db.apply custody (fun _ _ _ _ => True) (calls i).rpc
        (fun _ => StatusEnds) [] [] db := by
      rw [hc]
      exact Call.along_of_wp (wp_updateStatus ctx condition status db)
    have halong := Discipline.along (p := fun i => (calls i).rpc) (Q := fun _ => StatusEnds)
      (i := i) trivial (fun i => (calls i).safe db) (fun _ => robust_statusEnds.stable) hstart h
    have hends : StatusEnds own held σ.committed := halong own held _ hrun
    exact hends.2

/-- What a call sees of an account has its committed status. -/
theorem Replaces.isActive_view {own : List Write} {held : List LockKey} {x : Uuid}
    (h : Replaces SameStanding own held db) (hx : IsActive x (view Db.apply db own)) :
    IsActive x db := by
  obtain ⟨a, ha, hactive⟩ := hx
  obtain ⟨b, hb, hstanding⟩ := h.get?_view (fun _ => ⟨rfl, rfl⟩) ha
  exact ⟨b, hb, hstanding.2.symm.trans hactive⟩

/-- A step of another call does not move a call on. -/
theorem calls_of_step {i j : ι} (hs : Step Db.apply σ i σ') (hij : j ≠ i) :
    σ'.calls j = σ.calls j := by
  cases hs with
  | exec hi _ => exact State.set_calls_of_ne σ _ hij
  | commit hi => exact State.set_calls_of_ne σ _ hij
  | abort hi => exact State.set_calls_of_ne σ _ hij
  | cancel hi => exact State.set_calls_of_ne σ _ hij

namespace FreezeHistory

omit [DecidableEq ι] in
theorem start : FreezeHistory calls db [] (State.initial db fun i => (calls i).rpc) where
  guarded := by
    intro i own held code hi hrun x
    obtain ⟨ctx, args, hi⟩ := hi
    cases hrun
    refine Or.inl ?_
    show Spares x (ExceptT.run (calls i).rpc)
    rw [hi]
    have hspares : (StatusCall.transfer ctx args).rpc.WithinIf (fun db => ¬ IsActive x db)
        (Write.Not x) fun _ => True :=
      Call.WithinIf.bind ((spares_processTransaction x ctx args).mono fun _ _ =>
        Call.withinIf_pure trivial)
    exact hspares.forget
  written i a ha := nomatch ha
  active _ _ _ hs := nomatch hs
  entries e he := Or.inl he
  posts i e h := by
    obtain ⟨s, hs, -⟩ := h
    cases hs

omit [DecidableEq ι] in
/-- One more step: what it owes to the history. -/
theorem next {i : ι} (h : FreezeHistory calls db steps σ)
    (hguarded : ∀ j own held code, (calls j).IsTransfer → σ'.calls j = .running own held code →
      ∀ x, Spares x code ∨ IsActive x σ'.committed)
    (hown : ∀ j, ∀ a ∈ updated (σ'.calls j).own,
      a ∈ updated (σ.calls j).own ∨ Updates j (σ, i, σ') a.id)
    (hactive : ∀ j x, (calls j).IsTransfer → Updates j (σ, i, σ') x → IsActive x σ.committed)
    (hentries : ∀ e ∈ σ'.committed.ledgerEntries,
      e ∈ σ.committed.ledgerEntries ∨ Posts i (σ, i, σ') e)
    (hposts : ∀ j e, Posts j (σ, i, σ') e →
      (calls j).IsTransfer ∧ ∃ a ∈ updated (σ.calls j).own, a.id = e.accountId) :
    FreezeHistory calls db (steps ++ [(σ, i, σ')]) σ' where
  guarded := hguarded
  written := by
    intro j a ha
    rcases hown j a ha with ha | hupdates
    · obtain ⟨s, hs, hupdates⟩ := h.written j a ha
      exact ⟨s, List.mem_append_left _ hs, hupdates⟩
    · exact ⟨_, List.mem_append_right _ (List.mem_singleton.2 rfl), hupdates⟩
  active := by
    intro j hj s hs x hupdates
    rcases List.mem_append.1 hs with hs | hs
    · exact h.active j hj s hs x hupdates
    · cases List.mem_singleton.1 hs
      exact hactive j x hj hupdates
  entries := by
    intro e he
    rcases hentries e he with he | hnew
    · refine (h.entries e he).imp id ?_
      rintro ⟨j, s, hs, hold⟩
      exact ⟨j, s, List.mem_append_left _ hs, hold⟩
    · exact Or.inr ⟨i, _, List.mem_append_right _ (List.mem_singleton.2 rfl), hnew⟩
  posts := by
    rintro j e ⟨s, hs, hold⟩
    rcases List.mem_append.1 hs with hs | hs
    · obtain ⟨hj, s', hs', hupdates⟩ := h.posts j e ⟨s, hs, hold⟩
      exact ⟨hj, s', List.mem_append_left _ hs', hupdates⟩
    · cases List.mem_singleton.1 hs
      obtain ⟨hj, a, ha, hid⟩ := hposts j e hold
      obtain ⟨s', hs', hupdates⟩ := h.written j a ha
      exact ⟨hj, s', List.mem_append_left _ hs', hid ▸ hupdates⟩

/-- **A call that ends** writes nothing in that step. -/
theorem ended (h : FreezeHistory calls db steps σ) {i : ι} (hs : Step Db.apply σ i σ')
    (hend : (σ'.calls i).own = [])
    (hguarded : ∀ j own held code, j ≠ i → (calls j).IsTransfer →
      σ.calls j = .running own held code → ∀ x, Spares x code ∨ IsActive x σ'.committed)
    (hrunning : ∀ own held code, σ'.calls i ≠ .running own held code)
    (hentries : ∀ e ∈ σ'.committed.ledgerEntries,
      e ∈ σ.committed.ledgerEntries ∨ Posts i (σ, i, σ') e)
    (hposts : ∀ e, Posts i (σ, i, σ') e →
      (calls i).IsTransfer ∧ ∃ a ∈ updated (σ.calls i).own, a.id = e.accountId) :
    FreezeHistory calls db (steps ++ [(σ, i, σ')]) σ' := by
  refine h.next ?_ ?_ ?_ hentries ?_
  · intro j own held code hj hrun
    by_cases hji : j = i
    · subst hji
      exact absurd hrun (hrunning own held code)
    · rw [calls_of_step hs hji] at hrun
      exact hguarded j own held code hji hj hrun
  · intro j a ha
    by_cases hji : j = i
    · subst hji
      rw [hend] at ha
      cases ha
    · rw [calls_of_step hs hji] at ha
      exact Or.inl ha
  · rintro j x - ⟨hij, ws, hws, a, ha, -⟩
    obtain rfl : i = j := hij
    have hnil : [] = (σ.calls i).own ++ ws := hend.symm.trans hws
    rw [(List.append_eq_nil_iff.1 hnil.symm).2] at ha
    cases ha
  · intro j e hpost
    obtain rfl : i = j := hpost.1
    exact hposts e hpost

/-- **A statement** that writes an account finds it active. -/
theorem executed (h : FreezeHistory calls db steps σ)
    (hreach : Reach (Step Db.apply) Always (State.initial db fun i => (calls i).rpc) σ) {i : ι}
    {own : List Write} {held : List LockKey} {o : Stmt Db Write LockKey PgError}
    {k : o.Res → Prog (Stmt Db Write LockKey PgError) Stmt.Res (Except PgError Unit)}
    (hi : σ.calls i = .running own held (.op o k)) {held' : List LockKey} :
    let σ' := σ.set i (.running (own ++ o.writes (view Db.apply σ.committed own)) held'
      (k (o.answer (view Db.apply σ.committed own))))
    FreezeHistory calls db (steps ++ [(σ, i, σ')]) σ' := by
  intro σ'
  have hself : σ'.calls i = .running (own ++ o.writes (view Db.apply σ.committed own)) held'
      (k (o.answer (view Db.apply σ.committed own))) := State.set_calls_self σ i _
  have hothers : ∀ j, j ≠ i → σ'.calls j = σ.calls j := fun j hj => State.set_calls_of_ne σ _ hj
  have hown : (σ.calls i).own = own := by rw [hi]; rfl
  have hown' : (σ'.calls i).own = own ++ o.writes (view Db.apply σ.committed own) := by
    rw [hself]
    rfl
  -- while the account is inactive, the statement does not write it
  have hspared : (calls i).IsTransfer → ∀ x, IsActive x σ.committed ∨
      (∀ w ∈ o.writes (view Db.apply σ.committed own), w.Not x) ∧
        Spares x (k (o.answer (view Db.apply σ.committed own))) := by
    intro htransfer x
    by_cases hx : IsActive x σ.committed
    · exact Or.inl hx
    · refine Or.inr ((h.guarded i own held _ htransfer hi x).resolve_right hx _ ?_)
      exact fun hview => hx ((replaces_of_reach hreach htransfer hi).isActive_view hview)
  refine h.next ?_ ?_ ?_ (fun e he => Or.inl he) ?_
  · intro j own' held'' code hj hrun x
    by_cases hji : j = i
    · subst hji
      rw [hself] at hrun
      cases hrun
      exact (hspared hj x).symm.imp And.right id
    · rw [hothers j hji] at hrun
      exact h.guarded j own' held'' code hj hrun x
  · intro j a ha
    by_cases hji : j = i
    · subst hji
      rw [hown', updated_append, List.mem_append] at ha
      rw [hown]
      refine ha.imp id fun ha => ⟨rfl, o.writes (view Db.apply σ.committed own), ?_, a, ha, rfl⟩
      rw [hown', hown]
    · rw [hothers j hji] at ha
      exact Or.inl ha
  · rintro j x hj ⟨hij, ws, hws, a, ha, rfl⟩
    obtain rfl : i = j := hij
    have hsame : own ++ o.writes (view Db.apply σ.committed own) = own ++ ws := by
      rw [← hown', ← hown]
      exact hws
    rw [← List.append_cancel_left hsame] at ha
    refine (hspared hj a.id).resolve_right fun hnot => ?_
    obtain ⟨w, hw, hwa⟩ := List.mem_filterMap.1 ha
    cases w with
    | account a' =>
      cases hwa
      exact hnot.1 _ hw a rfl rfl
    | _ => cases hwa
  · rintro j e ⟨hij, hcommitted, -⟩
    obtain rfl : i = j := hij
    exact nomatch hself.symm.trans hcommitted

/-- **A commit** keeps active what a transfer in progress relies on. -/
theorem committed (h : FreezeHistory calls db steps σ)
    (hreach : Reach (Step Db.apply) Always (State.initial db fun i => (calls i).rpc) σ) {i : ι}
    (hidle : FreezesIdle calls σ i) {own : List Write} {held : List LockKey}
    (hi : σ.calls i = .running own held (.ret (.ok ()))) :
    let σ' := { (σ.set i (.committed ())) with committed := view Db.apply σ.committed own }
    FreezeHistory calls db (steps ++ [(σ, i, σ')]) σ' := by
  intro σ'
  have hself : σ'.calls i = .committed () := State.set_calls_self σ i _
  have hown : (σ.calls i).own = own := by rw [hi]; rfl
  refine h.ended (.commit hi) (by rw [hself]; rfl) ?_ (by rw [hself]; exact fun _ _ _ => nofun) ?_ ?_
  · intro j own' held' code hji hj hrun x
    refine (h.guarded j own' held' code hj hrun x).elim Or.inl fun hactive => ?_
    obtain ⟨a, ha, hstatus⟩ := hactive
    have hthere : (view Db.apply σ.committed own).accounts.get? x ≠ none :=
      view_get?_ne_none (by rw [ha]; exact Option.some_ne_none a)
    obtain ⟨a', ha'⟩ := Option.ne_none_iff_exists'.1 hthere
    by_cases hactive' : a'.status = .active
    · exact Or.inr ⟨a', ha', hactive'⟩
    · rcases get?_view_cases ha' with ⟨hmem, rfl⟩ | hold
      · by_cases htransfer : (calls i).IsTransfer
        · -- a transfer keeps the status
          obtain ⟨ctx, args, hc⟩ := htransfer
          have hends : TransferEnds own held σ.committed := along_of_reach hreach hc own held _ hi
          obtain ⟨-, b, hb, hstanding⟩ := hends.1 a' hmem
          cases hb.symm.trans ha
          exact absurd (hstanding.2.trans hstatus) hactive'
        · refine Or.inl (hidle htransfer (by rw [hi]; rfl) a' ?_ hactive' j own' held' code hj hrun)
          rwa [hown]
      · cases hold.symm.trans ha
        exact absurd hstatus hactive'
  · intro e he
    have he : e ∈ (view Db.apply σ.committed own).ledgerEntries := he
    rw [view_ledgerEntries] at he
    refine (Table.mem_of_mem_foldl_put he).symm.imp id fun he => ⟨rfl, hself, ?_⟩
    rwa [hown]
  · rintro e ⟨-, -, he⟩
    rw [hown] at he ⊢
    by_cases htransfer : (calls i).IsTransfer
    · obtain ⟨ctx, args, hc⟩ := htransfer
      have hends : TransferEnds own held σ.committed := along_of_reach hreach hc own held _ hi
      exact ⟨⟨ctx, args, hc⟩, hends.2 e he⟩
    · rw [posted_of_reach hreach htransfer hi] at he
      cases he

/-- **One step** of a run whose commits meet the condition. -/
theorem step (h : FreezeHistory calls db steps σ)
    (hreach : Reach (Step Db.apply) Always (State.initial db fun i => (calls i).rpc) σ) {i : ι}
    (hidle : FreezesIdle calls σ i) (hs : Step Db.apply σ i σ') :
    FreezeHistory calls db (steps ++ [(σ, i, σ')]) σ' := by
  have hundone : ∀ {e : Option PgError}, Step Db.apply σ i (σ.set i (.aborted e)) →
      FreezeHistory calls db (steps ++ [(σ, i, σ.set i (.aborted e))]) (σ.set i (.aborted e)) := by
    intro e hs
    have hself : (σ.set i (.aborted e)).calls i = .aborted e := State.set_calls_self σ i _
    refine h.ended hs (by rw [hself]; rfl) (fun j own held code _ => h.guarded j own held code)
      (by rw [hself]; exact fun _ _ _ => nofun) (fun e he => Or.inl he) ?_
    rintro e' ⟨-, hcommitted, -⟩
    exact nomatch hself.symm.trans hcommitted
  cases hs with
  | exec hi hfree => exact h.executed hreach hi
  | commit hi => exact h.committed hreach hidle hi
  | abort hi => exact hundone (.abort hi)
  | cancel hi => exact hundone (.cancel hi)

end FreezeHistory

/-- **No money moves on a frozen account** in any run whose status updates meet the
condition: every new entry was posted by a call of the run that found the account
active whenever it updated its balance. -/
theorem posts_active (calls : ι → StatusCall) (db : Db)
    (h : Run (Step Db.apply) (FreezesIdle calls) (State.initial db fun i => (calls i).rpc)
      steps σ) :
    (∀ e ∈ σ.committed.ledgerEntries, e ∈ db.ledgerEntries ∨ ∃ i, ∃ s ∈ steps, Posts i s e) ∧
      PostsActive steps := by
  have hhistory : FreezeHistory calls db steps σ := by
    refine h.invariant .start fun hrun hinv hidle hs => ?_
    exact hinv.step (hrun.reach.mono fun _ _ _ => trivial) hidle hs
  refine ⟨hhistory.entries, fun i e hposts => ?_⟩
  obtain ⟨htransfer, hupdates⟩ := hhistory.posts i e hposts
  exact ⟨hupdates, fun s hs => hhistory.active i htransfer s hs e.accountId⟩

end

/-! ## A freeze between the check and the update

A transfer from account `100` to account `200`, and an update that freezes account
`200` when the transfer has posted to its source. -/

/-- The two calls. -/
def freezing : Bool → StatusCall
  | false => .transfer (.plain true 7 1 0 300) (RpcCall.transferArgs 10 100 (some 200) none)
  | true => .updateStatus { Context.plain true 7 1 0 400 with
      session := { (Context.plain true 7 1 0 400).session with role := .serviceRole } }
      (fun a => decide (a.id = 200)) .frozen

namespace Freezing

/-- A credit account and a checking account. -/
def before : Db := RpcCall.openings.foldl RpcCall.step Db.starter

/-- The transfer after its first posting. -/
def posted : CallState Db Write LockKey PgError Unit :=
  (CallState.start (freezing false).rpc).advance Db.apply before 15

/-- The update of the status when it has returned. -/
def frozen : CallState Db Write LockKey PgError Unit :=
  (CallState.start (freezing true).rpc).advance Db.apply before 5

/-- The database with the frozen account. -/
def after : Db := view Db.apply before frozen.own

/-- The transfer when it has locked its destination, which is frozen. -/
def locked : CallState Db Write LockKey PgError Unit := posted.advance Db.apply after 3

/-- The transfer after it has written its destination. -/
def moved : CallState Db Write LockKey PgError Unit := locked.next Db.apply after

/-- The transfer when it has returned. -/
def returned : CallState Db Write LockKey PgError Unit := moved.advance Db.apply after 4

end Freezing

/-- The theorem at work: the transfer commits before the update starts. -/
theorem posts_active_freezing :
    ∃ (steps : List (StatusState Bool × Bool × StatusState Bool)) (σ : StatusState Bool),
      σ.committed.ledgerEntries.rows.length = 2 ∧ PostsActive steps := by
  let c := (CallState.start (freezing false).rpc).advance Db.apply Freezing.before 23
  have hreturned : c.returned = some () := by decide +kernel
  have hentries : (view Db.apply Freezing.before c.own).ledgerEntries.rows.length = 2 := by
    decide +kernel
  let σ₀ : StatusState Bool := State.initial Freezing.before fun i => (freezing i).rpc
  have hok : ∀ σ, FreezesIdle freezing σ false := fun _ hnot => absurd ⟨_, _, rfl⟩ hnot
  have hreach : Reach (Step Db.apply) (FreezesIdle freezing) σ₀ (σ₀.set false c) :=
    reach_of_advance hok fun j _ l _ hl => nomatch hl
  obtain ⟨steps, hrun⟩ := hreach.exists_run
  have hcommit : Step Db.apply (σ₀.set false c) false
      { ((σ₀.set false c).set false (.committed ())) with
        committed := view Db.apply Freezing.before c.own } := step_of_returned hreturned
  exact ⟨_, { ((σ₀.set false c).set false (.committed ())) with
    committed := view Db.apply Freezing.before c.own }, hentries,
    (posts_active freezing Freezing.before (hrun.next (hok _) hcommit)).2⟩

/-- **The frozen destination**: its status was checked before, and money moves on it
after the freeze has been committed. -/
theorem not_posts_active :
    ¬ ∀ (calls : Bool → StatusCall) (db : Db)
      (steps : List (StatusState Bool × Bool × StatusState Bool)) (σ : StatusState Bool),
      Run (Step Db.apply) Always (State.initial db fun i => (calls i).rpc) steps σ →
      PostsActive steps := by
  intro h
  let σ₀ : StatusState Bool := State.initial Freezing.before fun i => (freezing i).rpc
  let σ₁ := σ₀.set false Freezing.posted
  let σ₂ := σ₁.set true Freezing.frozen
  let σ₃ : StatusState Bool := { (σ₂.set true (.committed ())) with committed := Freezing.after }
  let σ₄ := σ₃.set false Freezing.locked
  let σ₅ := σ₄.set false Freezing.moved
  let σ₆ := σ₅.set false Freezing.returned
  let σ₇ : StatusState Bool := { (σ₆.set false (.committed ())) with
    committed := view Db.apply Freezing.after Freezing.returned.own }
  have halone : ∀ {held : List LockKey} {σ : StatusState Bool}, σ.calls true = .committed () →
      σ.Free false held := by
    intro held σ hσ j hj l _ hl
    obtain rfl : j = true := by simpa using hj
    rw [hσ] at hl
    cases hl
  have happly : Reach (Step Db.apply) Always σ₀ σ₄ := by
    have hfirst : Reach (Step Db.apply) Always σ₀ σ₁ :=
      reach_of_advance (fun _ => trivial) fun j _ l _ hl => nomatch hl
    have hsecond : Reach (Step Db.apply) Always σ₁ σ₂ := by
      have hapart : Freezing.frozen.held.all (fun l => decide (l ∉ Freezing.posted.held)) = true := by
        decide +kernel
      refine reach_of_advance (σ := σ₁) (i := true) (n := 5) (fun _ => trivial) fun j hj l hl => ?_
      obtain rfl : j = false := by simpa using hj
      have hl' := of_decide_eq_true (List.all_eq_true.1 hapart l hl)
      exact hl'
    have hthird : Reach (Step Db.apply) Always σ₂ σ₃ := by
      have hreturned : Freezing.frozen.returned = some () := by decide +kernel
      exact .next .start trivial (step_of_returned (σ := σ₂) (i := true) hreturned)
    have hfourth : Reach (Step Db.apply) Always σ₃ σ₄ :=
      reach_of_advance (σ := σ₃) (i := false) (n := 3) (fun _ => trivial) (halone rfl)
    exact ((hfirst.trans hsecond).trans hthird).trans hfourth
  have hwrites : (updated (Freezing.locked.writes Db.apply Freezing.after)).map (·.id) = [200] := by
    decide +kernel
  obtain ⟨a, ha⟩ := List.map_eq_singleton_iff.1 hwrites
  have hstep : Step Db.apply σ₄ false σ₅ := by
    refine step_of_writes (σ := σ₄) (i := false) ?_ (halone rfl)
    intro hnil
    have hnone : updated (Freezing.locked.writes Db.apply Freezing.after) = [] :=
      congrArg updated hnil
    rw [hnone] at hwrites
    cases hwrites
  have hrest : Reach (Step Db.apply) Always σ₅ σ₆ :=
    reach_of_advance (σ := σ₅) (i := false) (n := 4) (fun _ => trivial) (halone rfl)
  have hreturned : Freezing.returned.returned = some () := by decide +kernel
  have hcommit : Step Db.apply σ₆ false σ₇ := step_of_returned (σ := σ₆) (i := false) hreturned
  obtain ⟨xs, hxs⟩ := happly.exists_run
  obtain ⟨ys, hys⟩ := hrest.exists_run
  have hrun := ((hxs.next trivial hstep).append hys).next trivial hcommit
  have hentry : (EnterpriseSystem.posted Freezing.returned.own).any
      (fun e => decide (e.accountId = 200)) = true := by decide +kernel
  obtain ⟨e, he, haccount⟩ := List.any_eq_true.1 hentry
  have haccount : e.accountId = 200 := of_decide_eq_true haccount
  have hposts : Posts false (σ₆, false, σ₇) e := ⟨rfl, rfl, he⟩
  have hupdates : Updates false (σ₄, false, σ₅) e.accountId := by
    refine ⟨rfl, _, CallState.own_next Freezing.after Freezing.locked, a, ?_, ?_⟩
    · rw [ha.1]
      exact List.mem_singleton.2 rfl
    · rw [haccount, ha.2]
  obtain ⟨-, hactive⟩ := h freezing Freezing.before _ σ₇ hrun false e
    ⟨_, List.mem_append_right _ (List.mem_singleton.2 rfl), hposts⟩
  obtain ⟨b, hb, hstatus⟩ := hactive _ (List.mem_append_left _ (List.mem_append_left _
    (List.mem_append_right _ (List.mem_singleton.2 rfl)))) hupdates
  have hfrozen : (Freezing.after.accounts.get? 200).all
      (fun a => decide (a.status ≠ .active)) = true := by decide +kernel
  rw [haccount] at hb
  have hb : Freezing.after.accounts.get? 200 = some b := hb
  rw [hb] at hfrozen
  exact of_decide_eq_true hfrozen hstatus

end EnterpriseSystem
