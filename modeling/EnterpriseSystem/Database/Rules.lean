import EnterpriseSystem.Base.RelyGuarantee
import EnterpriseSystem.Database.OwnWrites
import EnterpriseSystem.Database.Transfer

/-!
# The functions under any discipline

What holds of a function whatever the calls agree on: an assertion that the
others and the function's own writes cannot falsify survives it, and something
is gained.

* `wp_checkRateLimit` — every path through `check_rate_limit` that returns leaves
  the call with the lock on its bucket.
* `wp_insertTransaction` — the insertion of a transaction has checked its row.
* `wp_transaction` — a call of `process_transaction` is its transfer, as far as
  an assertion goes that the checks in front of it keep.
-/

namespace EnterpriseSystem

open Relational Concurrency

section

variable {R : Discipline Db LockKey PgError} {P : Write → Prop} {A : Assertion Db Write LockKey}

/-- **Whichever way the check goes**, a call that is still running after it holds
the lock on the bucket. -/
theorem wp_checkRateLimit (hR : ∀ e, R.Allowed e) (hA : Robust R Write.Quiet A) {ctx : Context} {key : String}
    {maxTokens refillRate : Option Int4} {own : List Write} {held : List LockKey} {db : Db}
    (h : A own held db) :
    Call.wp Db.apply R (checkRateLimit ctx (some key) maxTokens refillRate)
      (fun _ own held db => A own held db ∧ .rateLimit key ∈ held) own held db := by
  rw [checkRateLimit, Call.wp_bind, consumeToken, Call.wp_statement]
  intro db₁ hrely hinv
  have h₁ := hA.stable h hrely hinv
  refine ⟨fun ws tokens hexec => ?_, fun e _ => hR e⟩
  cases hspend : spendable (some key) (view Db.apply db₁ own) with
  | some r =>
    -- the update has found a token
    rw [hspend] at hexec
    obtain ⟨r', -, hexec⟩ := bind_eq_ok.1 hexec
    cases hexec
    have hkey : r.key = key := Table.key_of_get? (Option.filter_eq_some_iff.1 hspend).1
    refine ⟨hA.append h₁ (by simp [Write.Quiet]), List.mem_append_right _ ?_⟩
    simp [hkey]
  | none =>
    -- the insertion creates the row, or refills it, or leaves it empty
    rw [hspend] at hexec
    cases hexec
    show Call.wp Db.apply R (_ >>= _) _ _ _ _
    rw [Option.map_none, Option.toList_none, List.append_nil, List.append_nil, Call.wp_bind,
      createOrRefill, Call.wp_statement]
    intro db₂ hrely hinv
    have h₂ := hA.stable h₁ hrely hinv
    refine ⟨fun ws _ hexec => ?_, fun e _ => hR e⟩
    have hquiet : ∀ w ∈ ws, Write.Quiet w := by
      obtain ⟨new, -, hexec⟩ := bind_eq_ok.1 hexec
      split at hexec
      · cases hexec
        simp [Write.Quiet]
      · obtain ⟨r', -, hexec⟩ := bind_eq_ok.1 hexec
        cases hexec
        simp [Write.Quiet]
    rw [Call.wp_bind, Call.wp_select]
    intro db₃ hrely hinv
    exact ⟨hA.stable (hA.append h₂ hquiet) hrely hinv, List.mem_append_right _ (by simp)⟩

/-- **The insertion of a transaction** keeps what it cannot falsify, and has
checked the row it returns. -/
theorem wp_insertTransaction (hR : ∀ e, PgError.IsSystem e → R.Allowed e)
    (hquiet : ∀ w, Write.Quiet w → P w) (hrow : ∀ t, P (.transaction t)) (hA : Robust R P A)
    {ctx : Context} {args : TransactionArgs} {own : List Write} {held : List LockKey} {db : Db}
    (h : A own held db) :
    Call.wp Db.apply R (insertTransaction ctx args)
      (fun t own held db => A own held db ∧ IsNewTransaction ctx args t) own held db := by
  rw [insertTransaction, Call.wp_bind, Call.wp_evaluate]
  refine ⟨fun uid _ => ?_, fun e he => hR e (isSystem_of_authUid he)⟩
  rw [Call.wp_bind, Call.wp_statement]
  intro db' hrely hinv
  have h' := hA.stable h hrely hinv
  constructor
  · intro ws t hexec
    obtain ⟨t, hnew, hexec⟩ := bind_eq_ok.1 hexec
    repeat' split at hexec
    all_goals cases hexec
    have hbulk := (quiet_detectBulkOperation ctx (ctx.uuid 1) "transactions" "INSERT").mono hquiet hR
    rw [Call.wp_bind]
    exact Call.wp_mono (fun _ _ _ _ h => ⟨h, newTransaction_ok hnew⟩)
      (hA.wp hbulk (hA.append h' (by simp [hrow])))
  · intro e he
    refine hR e (isSystem_of_bind he (fun _ => isSystem_of_newTransaction) ?_)
    intro _ _ he
    repeat' split at he
    all_goals cases he <;> trivial

/-- **A call of `process_transaction`**, for an assertion that the checks in
front of the transfer cannot falsify: it is enough to look at the transfer. -/
theorem wp_transaction (hR : ∀ e, R.Allowed e) (hquiet : ∀ w, Write.Quiet w → P w)
    (hA : Robust R P A) {Q : Assertion Db Write LockKey}
    (hreplay : ∀ own held db, A own held db → Q own held db) {ctx : Context}
    {args : TransactionArgs} (hpost : ∀ own held db, A own held db →
      Call.wp Db.apply R (postTransfer ctx args) (fun _ => Q) own held db)
    {own : List Write} {held : List LockKey} {db : Db} (h : A own held db) :
    Call.wp Db.apply R (processTransaction ctx args) (fun _ => Q) own held db := by
  rw [processTransaction, Call.wp_bind]
  refine Call.wp_mono (fun allowed own held db h => ?_)
    (hA.wp ((quiet_checkRateLimit _ _ _ _).mono hquiet fun e _ => hR e) h)
  rw [Call.wp_bind, Call.wp_onlyIf]
  refine ⟨fun _ => hR _, fun _ => ?_⟩
  rw [Call.wp_bind, Call.wp_select]
  intro db' hrely hinv
  have h' : A own held db' := hA.stable h hrely hinv
  split
  · exact hreplay own held db' h'
  · rw [Call.wp_bind]
    exact Call.wp_mono (fun _ own held db h => hpost own held db h)
      (hA.wp ((within_checkTransfer args).mono (fun _ h => h) fun e _ => hR e) h')

end

end EnterpriseSystem
