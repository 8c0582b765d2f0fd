import EnterpriseSystem.Database.Rules

/-!
# Accounts and their organizations

An account refers to its organization, which the insertion has found and no call
removes.  That an account is there also tells that a call has been able to write
to the audit log, so the names in its functions are found.

* `Grounded` — what holds of the accounts.
* `Refers` — what a call knows about the accounts it has written.
* `grounded_of_reach` — the result for every interleaving.
-/

namespace EnterpriseSystem

open Relational Concurrency

/-- The organization of every account is there, and the names are found. -/
def Grounded (server : Server) (db : Db) : Prop :=
  ∀ a ∈ db.accounts, db.organizations.contains a.orgId = true ∧ server.resolvesUnqualified = true

/-- The rules of the calls: nobody touches the organizations. -/
def grounding (server : Server) : Discipline Db LockKey PgError where
  Inv := Grounded server
  Rely _ db db' := db'.organizations = db.organizations
  Allowed _ := True
  refl _ _ := rfl
  trans h h' := h'.trans h

/-- The accounts a call has written refer to organizations that are there, and
`found` holds if there are any. -/
def Refers (found : Prop) : Assertion Db Write LockKey := fun own _ db =>
  ∀ a ∈ updated own, db.organizations.contains a.orgId = true ∧ found

/-- A write of a row that is not an account. -/
def Write.OffAccounts (w : Write) : Prop := w.account? = none

theorem Write.Quiet.offAccounts {w : Write} (h : w.Quiet) : w.OffAccounts := by
  cases w with
  | auditEntry | securityEvent | rateLimit => rfl
  | organizationMember | account | transaction | ledgerEntry => exact h.elim

section

variable {server : Server} {found : Prop} {own : List Write} {held : List LockKey} {db : Db}

theorem robust_refers (found : Prop) : Robust (grounding server) Write.OffAccounts (Refers found) where
  stable := by
    rintro own held db db' h hrely -
    have horgs : db'.organizations = db.organizations := hrely
    intro a ha
    rw [horgs]
    exact h a ha
  append := by
    intro own held db ws ks h hws a ha
    rw [updated, List.filterMap_append, List.mem_append] at ha
    rcases ha with ha | ha
    · exact h a ha
    · obtain ⟨w, hw, hwa⟩ := List.mem_filterMap.1 ha
      rw [hws w hw] at hwa
      cases hwa

/-- One more account. -/
theorem Refers.append (h : Refers found own held db) {a : Account} {ks : List LockKey}
    (horg : db.organizations.contains a.orgId = true) (hfound : found) :
    Refers found (own ++ [.account a]) (held ++ ks) db := by
  intro b hb
  rw [updated, List.filterMap_append, List.mem_append] at hb
  rcases hb with hb | hb
  · exact h b hb
  · cases List.mem_singleton.1 hb
    exact ⟨horg, hfound⟩

/-- What a call sees of the accounts. -/
theorem Refers.view (h : Refers (server.resolvesUnqualified = true) own held db)
    (hinv : Grounded server db) : Grounded server (view Db.apply db own) := by
  intro a ha
  rw [view_updated] at ha
  rw [view_organizations]
  rcases Table.mem_of_mem_foldl_put ha with ha | ha
  · exact h a ha
  · exact hinv a ha

theorem Refers.committable (h : Refers (server.resolvesUnqualified = true) own held db) :
    Committable Db.apply (grounding server) own held db := by
  intro db' hrely hinv
  have h' := (robust_refers _).stable h hrely hinv
  exact ⟨h'.view hinv, fun held' _ => view_organizations db' own⟩

/-! ## The functions -/

theorem within_grounding {α : Type} {p : Rpc α} (hp : p.Quiet) :
    Call.Within Write.OffAccounts (grounding server).Allowed p :=
  hp.mono (fun _ => Write.Quiet.offAccounts) fun _ _ => trivial

/-- **An update of a balance** keeps the organization of the account. -/
theorem wp_groundedBalance {ctx : Context} {site : ℕ} {id : Option Uuid} {f : Numeric → Numeric}
    (h : Refers (server.resolvesUnqualified = true) own held db) :
    Call.wp Db.apply (grounding server) (updateBalance ctx site id f)
      (fun _ => Refers (server.resolvesUnqualified = true)) own held db := by
  have hrobust : Robust (grounding server) Write.OffAccounts
    (Refers (server.resolvesUnqualified = true)) := robust_refers _
  rw [updateBalance, Call.wp_bind, Call.wp_statement]
  intro db' hrely hinv
  have h' := hrobust.stable h hrely hinv
  refine ⟨fun ws row hexec => ?_, fun _ _ => trivial⟩
  cases hrow : accountRow id (view Db.apply db' own) with
  | none =>
    simp only [hrow] at hexec
    cases hexec
    rw [Call.wp_bind]
    exact Call.wp_mono (fun _ _ _ _ h => h) (hrobust.wp
      (within_grounding (quiet_detectBulkOperation _ _ _ _)) (hrobust.append h' (by simp)))
  | some a =>
    simp only [hrow] at hexec
    obtain ⟨stored, -, hexec⟩ := bind_eq_ok.1 hexec
    obtain ⟨balance, -, hexec⟩ := bind_eq_ok.1 hexec
    cases hexec
    obtain ⟨i, -, hget⟩ := Option.bind_eq_some_iff.1 hrow
    obtain ⟨horg, hfound⟩ := h'.view hinv a (Table.mem_of_get? hget)
    rw [view_organizations] at horg
    have hknows : Robust (grounding server) Write.OffAccounts fun own held db =>
        Refers (server.resolvesUnqualified = true) own held db ∧
          db.organizations.contains a.orgId = true := by
      refine ⟨?_, fun h hws => ⟨hrobust.append h.1 hws, h.2⟩⟩
      rintro own held db db' h hrely hinv
      have horgs : db'.organizations = db.organizations := hrely
      exact ⟨hrobust.stable h.1 hrely hinv, by rw [horgs]; exact h.2⟩
    rw [Call.wp_bind]
    refine Call.wp_mono (fun _ own held db h => ?_) (hknows.wp
      (within_validateBalance (fun _ => Write.Quiet.offAccounts) _ _ _ _)
      ⟨hrobust.append h' (by simp), horg⟩)
    rw [Call.wp_bind, Call.wp_evaluate]
    refine ⟨fun checked _ => ?_, fun _ _ => trivial⟩
    rw [Call.wp_bind, Call.wp_statement]
    intro db'' hrely hinv
    refine ⟨fun ws _ hexec => ?_, fun _ _ => trivial⟩
    cases hexec
    obtain ⟨h'', horg'⟩ := hknows.stable h hrely hinv
    rw [Call.wp_bind]
    exact Call.wp_mono (fun _ _ _ _ h => h) (hrobust.wp
      (within_grounding (quiet_detectBulkOperation _ _ _ _))
      (h''.append (a := { a with balance := checked, updatedAt := ctx.now }) horg' hfound))

/-- A posting writes no other account. -/
theorem wp_groundedPosting {ctx : Context} {site : ℕ} {args : TransactionArgs}
    {transactionId : Uuid} {accountId : Option Uuid} {entryType : EntryType} {amount : Numeric}
    (h : Refers (server.resolvesUnqualified = true) own held db) :
    Call.wp Db.apply (grounding server)
      (postEntry ctx site args transactionId accountId entryType amount)
      (fun _ => Refers (server.resolvesUnqualified = true)) own held db := by
  rw [postEntry, Call.wp_bind]
  refine Call.wp_mono (fun _ own held db h => ?_) (wp_groundedBalance h)
  exact (robust_refers _).wp
    ((within_insertLedgerEntry fun _ _ => rfl).mono (fun _ h => h) fun _ _ => trivial) h

theorem wp_groundedTransaction {ctx : Context} {args : TransactionArgs}
    (h : Refers (server.resolvesUnqualified = true) own held db) :
    Call.wp Db.apply (grounding server) (processTransaction ctx args)
      (fun _ => Refers (server.resolvesUnqualified = true)) own held db := by
  refine wp_transaction (fun _ => trivial) (fun _ => Write.Quiet.offAccounts) (robust_refers _)
    (fun _ _ _ h => h) (fun own held db h => ?_) h
  rw [postTransfer, Call.wp_bind]
  refine Call.wp_mono (fun t own held db h => ?_) (wp_insertTransaction (fun _ _ => trivial)
    (fun _ => Write.Quiet.offAccounts) (fun _ => rfl) (robust_refers _) h)
  rw [Call.wp_bind, Call.wp_evaluate]
  refine ⟨fun amount _ => ?_, fun _ _ => trivial⟩
  have haudit : ∀ {own held db}, Refers (server.resolvesUnqualified = true) own held db →
      Call.wp Db.apply (grounding server)
        (do
          let _ ← writeAuditLog ctx (ctx.uuid 8) .create "transactions" (some t.id) none
            (some [("type", .ofText (args.type.map TransactionType.label)),
              ("amount", .ofNumeric args.amount), ("source", .ofUuid args.sourceAccount),
              ("dest", .ofUuid args.destAccount),
              ("idempotency_key", .ofText args.idempotencyKey)])
          return t) (fun _ => Refers (server.resolvesUnqualified = true)) own held db := by
    intro own held db h
    rw [Call.wp_bind]
    exact Call.wp_mono (fun _ _ _ _ h => h) ((robust_refers _).wp
      (within_grounding (quiet_writeAuditLog _ _ _ _ _ _ _)) h)
  rw [Call.wp_bind]
  refine Call.wp_mono (fun _ own held db h => ?_) (wp_groundedPosting h.1)
  rw [Call.wp_bind, Call.wp_onlyIf]
  refine ⟨fun _ => ?_, fun _ => haudit h⟩
  exact Call.wp_mono (fun _ _ _ _ h => haudit h) (wp_groundedPosting h)

/-- **The insertion** of an account has found its organization. -/
theorem wp_groundedAccount {ctx : Context} {args : AccountArgs} (h : Refers True own held db) :
    Call.wp Db.apply (grounding server) (insertAccount ctx args) (fun _ => Refers True) own held
      db := by
  rw [insertAccount, Call.wp_bind, Call.wp_evaluate]
  refine ⟨fun uid _ => ?_, fun _ _ => trivial⟩
  rw [Call.wp_bind, Call.wp_statement]
  intro db' hrely hinv
  have h' := (robust_refers _).stable h hrely hinv
  refine ⟨fun ws a hexec => ?_, fun _ _ => trivial⟩
  obtain ⟨a, -, hexec⟩ := bind_eq_ok.1 hexec
  split at hexec
  · cases hexec
  split at hexec
  · cases hexec
  rename_i horg
  cases hexec
  have horg := not_not.1 horg
  rw [view_organizations] at horg
  rw [Call.wp_bind]
  exact Call.wp_mono (fun _ _ _ _ h => h) ((robust_refers _).wp
    (within_grounding (quiet_detectBulkOperation _ _ _ _)) (h'.append horg trivial))

/-- A row of the audit log is written where the names are found. -/
theorem wp_groundedAudit {ctx : Context} {id : Uuid} {action : AuditAction} {tableName : String}
    {recordId : Option Uuid} {oldData newData : Option JsonObject} (h : Refers True own held db) :
    Call.wp Db.apply (grounding ctx.server)
      (writeAuditLog ctx id action tableName recordId oldData newData)
      (fun _ => Refers (ctx.server.resolvesUnqualified = true)) own held db := by
  have hrobust : Robust (grounding ctx.server) Write.OffAccounts
    (Refers (ctx.server.resolvesUnqualified = true)) := robust_refers _
  rw [writeAuditLog, Call.wp_bind, Call.wp_select]
  intro db₁ hrely hinv
  have h₁ := (robust_refers _).stable h hrely hinv
  rw [Call.wp_bind, Call.wp_evaluate]
  refine ⟨fun uid huid => ?_, fun _ _ => trivial⟩
  have hfound : ctx.server.resolvesUnqualified = true := by
    unfold resolveAuthUid at huid
    split at huid
    · assumption
    · cases huid
  have h₂ : Refers (ctx.server.resolvesUnqualified = true) own held db₁ :=
    fun a ha => ⟨(h₁ a ha).1, hfound⟩
  rw [Call.wp_statement]
  intro db₂ hrely hinv
  have h₃ := hrobust.stable h₂ hrely hinv
  refine ⟨fun ws _ hexec => ?_, fun _ _ => trivial⟩
  split at hexec
  · cases hexec
  · cases hexec
    exact hrobust.append h₃ (by simp [Write.OffAccounts, Write.account?])

theorem wp_groundedOpening {ctx : Context} {args : AccountArgs} (h : Refers True own held db) :
    Call.wp Db.apply (grounding ctx.server) (createAccount ctx args)
      (fun _ => Refers (ctx.server.resolvesUnqualified = true)) own held db := by
  rw [createAccount, Call.wp_bind]
  refine Call.wp_mono (fun allowed own held db h => ?_)
    ((robust_refers _).wp (within_grounding (quiet_checkRateLimit _ _ _ _)) h)
  rw [Call.wp_bind, Call.wp_onlyIf]
  refine ⟨fun _ => trivial, fun _ => ?_⟩
  rw [Call.wp_bind, Call.wp_select]
  intro db₁ hrely hinv
  have h₁ := (robust_refers _).stable h hrely hinv
  rw [Call.wp_bind, Call.wp_select]
  intro db₂ hrely hinv
  have h₂ := (robust_refers _).stable h₁ hrely hinv
  rw [Call.wp_bind, Call.wp_onlyIf]
  refine ⟨fun _ => trivial, fun _ => ?_⟩
  rw [Call.wp_bind]
  refine Call.wp_mono (fun a own held db h => ?_) (wp_groundedAccount h₂)
  rw [Call.wp_bind]
  exact Call.wp_mono (fun _ _ _ _ h => h) (wp_groundedAudit h)

end

/-! ## Runs -/

/-- Every call keeps to the discipline. -/
theorem safe_grounding (c : RpcCall) (db : Db) :
    Call.Safe Db.apply (grounding c.context.server) c.rpc db := by
  have hstart : ∀ found, Refers found [] [] db := fun _ _ ha => nomatch ha
  refine Call.wp_mono (fun _ _ _ _ h => Refers.committable h) ?_
  cases c with
  | createAccount ctx args =>
    rw [RpcCall.rpc, Call.wp_bind]
    exact Call.wp_mono (fun _ _ _ _ h => h) (wp_groundedOpening (hstart True))
  | processTransaction ctx args =>
    rw [RpcCall.rpc, Call.wp_bind]
    exact Call.wp_mono (fun _ _ _ _ h => h) (wp_groundedTransaction (hstart _))

/-- **However the calls on a server interleave**, the organizations of the
accounts are there. -/
theorem grounded_of_reach {ι : Type} [DecidableEq ι] {calls : ι → RpcCall} {server : Server}
    (hserver : ∀ i, (calls i).context.server = server) {db : Db}
    {σ : State ι Db Write LockKey PgError Unit}
    (h : Reach (Step Db.apply) Always (State.initial db.beforeAccounts fun i => (calls i).rpc) σ) :
    Grounded server σ.committed := by
  have hstart : (grounding server).Inv db.beforeAccounts := fun _ ha => nomatch ha
  have hsafe : ∀ i, Call.Safe Db.apply (grounding server) (calls i).rpc db.beforeAccounts := by
    intro i
    rw [← hserver i]
    exact safe_grounding (calls i) db.beforeAccounts
  exact (Discipline.sound hstart hsafe h).inv

end EnterpriseSystem
