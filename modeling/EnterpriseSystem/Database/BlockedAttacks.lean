import EnterpriseSystem.Database.RoleChange

/-!
# What is left of a blocked attack

`change_member_role` and `validate_role_change` log a security event and then
raise an exception.  Nobody catches it, so the call is undone, and the event with
it.

* `GuardedCall` — the statements that can be blocked: a call of the function, and
  an `INSERT` or `UPDATE` of members, which fires the trigger for each row.
* `IsBlocked` — the call ends with one of the errors raised after an event has
  been logged; `validateRoleChange_blocks` and `changeMemberRole_blocks` say when.
* `blocked_unrecorded` — no blocked call is on record.
-/

namespace EnterpriseSystem

open Relational Concurrency

/-! ## Statements on members -/

/-- The row of an `INSERT INTO public.organization_members`, with its trigger and
its constraints. -/
def insertMember (m : RoleMigration) (ctx : Context) (new : OrganizationMember) : Rpc Unit := do
  validateRoleChange m ctx none new
  statement (fun _ => [.row .organizationMembers new.id]) fun db =>
    if db.organizationMembers.rows.any fun r => decide (r.id = new.id) then
      .error (.uniqueViolation "organization_members_pkey")
    else if db.organizationMembers.contains new.key then
      .error (.uniqueViolation "org_member_unique")
    else if ¬ db.organizations.contains new.orgId then
      .error (.foreignKeyViolation "organization_members_org_id_fkey")
    else .ok ([.organizationMember new], ())

/-- The row of an `UPDATE public.organization_members`, with its triggers.  The
trigger before it keeps the organization and the user as they are. -/
def updateMember (m : RoleMigration) (ctx : Context) (old new : OrganizationMember) : Rpc Unit := do
  validateRoleChange m ctx (some old) new
  statement (fun _ => []) fun db =>
    if new.id ≠ old.id ∧ db.organizationMembers.rows.any (fun r => decide (r.id = new.id)) = true then
      .error (.uniqueViolation "organization_members_pkey")
    else .ok ([.organizationMember new], ())
  monitorPrivilegeChanges ctx old new

/-- A statement, row by row. -/
def forRows {α : Type} (p : α → Rpc Unit) : List α → Rpc Unit
  | [] => pure ()
  | a :: as => do
    p a
    forRows p as

/-- `UPDATE public.organization_members SET … WHERE condition`; `change` is what
the statement makes of a row. -/
def updateMembers (m : RoleMigration) (ctx : Context) (condition : OrganizationMember → Bool)
    (change : OrganizationMember → OrganizationMember) : Rpc Unit := do
  let rows ← statement
    (fun db => (db.organizationMembers.rows.filter condition).map fun r =>
      .row .organizationMembers r.id)
    fun db => .ok ([], db.organizationMembers.rows.filter condition)
  forRows (fun old => updateMember m ctx old (change old)) rows

/-- A statement that can be blocked. -/
inductive GuardedCall where
  | changeMemberRole (m : RoleMigration) (ctx : Context) (orgId userId : Option Uuid)
      (newRole : Option UserRole)
  | insertMembers (m : RoleMigration) (ctx : Context) (rows : List OrganizationMember)
  | updateMembers (m : RoleMigration) (ctx : Context) (condition : OrganizationMember → Bool)
      (change : OrganizationMember → OrganizationMember)

namespace GuardedCall

def migration : GuardedCall → RoleMigration
  | changeMemberRole m _ _ _ _ => m
  | insertMembers m _ _ => m
  | updateMembers m _ _ _ => m

def rpc : GuardedCall → Rpc Unit
  | changeMemberRole m ctx orgId userId newRole => do
    let _ ← EnterpriseSystem.changeMemberRole m ctx orgId userId newRole
  | insertMembers m ctx rows => forRows (insertMember m ctx) rows
  | updateMembers m ctx condition change => EnterpriseSystem.updateMembers m ctx condition change

/-- What a call does to the database: nothing when it raises an error. -/
def step (db : Db) (c : GuardedCall) : Db :=
  match c.rpc.exec db with
  | .ok (_, db') => db'
  | .error _ => db

end GuardedCall

/-! ## When a call is blocked -/

/-- The exception raised when the rate limit is exceeded. -/
def rateLimitExceeded (m : RoleMigration) : PgError := .raised m.rateLimitMessage [] "57014" []

/-- The exceptions the trigger raises about a privilege escalation. -/
def privilegeEscalations : List PgError :=
  [.raised "Only the organization owner can assign the owner role." [] "42501" [],
    .raised "Only the owner can demote another owner." [] "42501" []]

/-- The call is rejected because the rate limit is exceeded or because the trigger
detects a privilege escalation. -/
def GuardedCall.IsBlocked (c : GuardedCall) (db : Db) : Prop :=
  ∃ e, c.rpc.exec db = .error e ∧ (e = rateLimitExceeded c.migration ∨ e ∈ privilegeEscalations)

/-- The second state has one security event more than the first. -/
def Recorded (db db' : Db) : Prop :=
  ∃ e, db'.securityEvents.rows.Perm (e :: db.securityEvents.rows)

section

variable {m : RoleMigration} {ctx : Context} {u : Uuid} (hsub : ctx.session.sub = some u) {db : Db}

include hsub

/-- A check that logs an event and raises an exception. -/
theorem execute_logAndRaise {id : Uuid} (hresolves : ctx.server.resolvesUnqualified = true)
    (hid : db.securityEvents.get? id = none) (eventType : SecurityEventType) (severity : Severity)
    (description : String) (metadata : JsonObject) (actionTaken : String) (e : PgError) :
    execute Db.apply (do
      let _ ← logSecurityEvent ctx id eventType severity description metadata actionTaken
      throw e : Rpc Unit) db = .error e := by
  have hlog : execute Db.apply
      (logSecurityEvent ctx id eventType severity description metadata actionTaken) db = .ok _ :=
    (logSecurityEvent_eq_ok hsub).2 ⟨hresolves, hid, rfl, rfl⟩
  rw [execute_bind_of_ok _ hlog, execute_throw]

/-- **The trigger blocks** every row it does not pass, once it has logged the
event. -/
theorem validateRoleChange_blocks {old : OrganizationMember} {role : UserRole}
    (hresolves : ctx.server.resolvesUnqualified = true)
    (hid : db.securityEvents.get? (ctx.uuid 1) = none)
    (h : ¬ PassesRoleTrigger (activeRole (some old.orgId) u db) old role) :
    ∃ e ∈ privilegeEscalations,
      (validateRoleChange m ctx (some old) { old with role, updatedAt := ctx.now }).exec db =
        .error e := by
  unfold Rpc.exec
  rw [validateRoleChange, authUid_of_sub hsub,
    execute_bind_of_ok _ (execute_onlyIf_of_false _ (by simp) _ _),
    execute_bind_of_ok _ (execute_onlyIf_of_false _ (by simp) _ _),
    execute_evaluate_ok_bind, execute_select_bind]
  by_cases hpromote : role = .owner ∧ (sqlNe (activeRole (some old.orgId) u db) (some .owner)).Holds
  · refine ⟨_, List.mem_cons_self .., ?_⟩
    refine execute_bind_of_error _ ?_
    rw [execute_onlyIf_of_true _ hpromote]
    exact execute_logAndRaise hsub hresolves hid _ _ _ _ _ _
  · have hdemote : old.role = .owner ∧ role ≠ .owner ∧
        (sqlNe (activeRole (some old.orgId) u db) (some .owner)).Holds := by
      by_contra hc
      exact h ⟨hpromote, hc⟩
    refine ⟨_, List.mem_cons_of_mem _ (List.mem_cons_self ..), ?_⟩
    rw [execute_bind_of_ok _ (execute_onlyIf_of_false _ hpromote _ _)]
    refine execute_bind_of_error _ ?_
    rw [execute_onlyIf_of_true _ hdemote]
    exact execute_logAndRaise hsub hresolves hid _ _ _ _ _ _

/-- **The rate limit blocks** a call that leaves less than nothing in its bucket;
the function of the core schema logs the event first. -/
theorem changeMemberRole_blocks {orgId userId : Option Uuid} {newRole : Option UserRole}
    {row : RateLimit}
    (hlogged : m = .coreSchema → ctx.server.resolvesUnqualified = true ∧
      db.securityEvents.get? (ctx.uuid 0) = none)
    (htake : takeToken ctx.now ("role_change:" ++ u.text) ⟨5, by decide⟩ ⟨1, by decide⟩
      (db.rateLimits.get? ("role_change:" ++ u.text)) = .ok row) (htokens : row.tokens.1 < 0) :
    (changeMemberRole m ctx orgId userId newRole).exec db = .error (rateLimitExceeded m) := by
  have hlimit : execute Db.apply (checkRateLimit ctx (some ("role_change:" ++ u.text))
      (some ⟨5, by decide⟩) (some ⟨1, by decide⟩)) db =
        .ok (some false, db.apply (.rateLimit row)) := by
    have hcheck : (checkRateLimit ctx (some ("role_change:" ++ u.text)) (some ⟨5, by decide⟩)
        (some ⟨1, by decide⟩)).exec db = _ := execute_checkRateLimit ctx db (by decide)
    rw [htake] at hcheck
    rw [← decide_eq_false (not_le.2 htokens)]
    exact hcheck
  unfold Rpc.exec
  rw [changeMemberRole, authUid_of_sub hsub, execute_evaluate_ok_bind, execute_bind_of_ok _ hlimit]
  refine execute_bind_of_error _ ?_
  rw [execute_onlyIf_of_true _ (by decide)]
  cases m with
  | apply => rfl
  | coreSchema =>
    obtain ⟨hresolves, hid⟩ := hlogged rfl
    have hlog : execute Db.apply (logSecurityEvent ctx (ctx.uuid 0) .rateLimitExceeded .medium
        "Role change rate limit exceeded" [("actor", .ofUuid u), ("target", .ofUuid userId)] "logged")
          (db.apply (.rateLimit row)) = .ok _ :=
      (logSecurityEvent_eq_ok hsub).2 ⟨hresolves, hid, rfl, rfl⟩
    rw [execute_bind_of_ok _ ((execute_onlyIf_of_true _ rfl _ _).trans
      ((execute_bind_of_ok _ hlog).trans (execute_pure _ _ _)))]
    rfl

end

/-! ## What is left -/

/-- **Nothing is left.**  No blocked call is on record: the state is what it was
before. -/
theorem blocked_unrecorded {c : GuardedCall} {db : Db} (h : c.IsBlocked db) :
    ¬ Recorded db (c.step db) := by
  obtain ⟨e, hexec, -⟩ := h
  rintro ⟨event, hperm⟩
  have hlength := hperm.length_eq
  rw [GuardedCall.step, hexec] at hlength
  simp at hlength

/-- The admin `5` of the organization `1` makes everybody an owner. -/
def escalation : GuardedCall :=
  .updateMembers .coreSchema (.plain true 5 1 0 100) (fun _ => true)
    fun m => { m with role := .owner }

/-- The trigger blocks it. -/
theorem escalation_isBlocked : escalation.IsBlocked (.withMember .admin) := by
  have hblocked : (match escalation.rpc.exec (.withMember .admin) with
      | .ok _ => false
      | .error e => decide (e ∈ privilegeEscalations)) = true := by
    decide +kernel
  cases hexec : escalation.rpc.exec (.withMember .admin) with
  | ok r =>
    rw [hexec] at hblocked
    cases hblocked
  | error e =>
    rw [hexec] at hblocked
    exact ⟨e, hexec, Or.inr (of_decide_eq_true hblocked)⟩

/-- The theorem at work: the attempt of the admin. -/
theorem blocked_unrecorded_escalation :
    ¬ Recorded (.withMember .admin) (escalation.step (.withMember .admin)) :=
  blocked_unrecorded escalation_isBlocked

/-- **An attack without a trace.**  The attempt of the admin is blocked, and the
log of the security events is as empty as before. -/
theorem escalation_unrecorded :
    ¬ ∀ (c : GuardedCall) db, c.IsBlocked db → Recorded db (c.step db) := by
  intro h
  obtain ⟨e, hperm⟩ := h escalation (.withMember .admin) escalation_isBlocked
  have hempty : (escalation.step (.withMember .admin)).securityEvents.rows.length = 0 := by
    decide +kernel
  have hlength := hperm.length_eq
  rw [hempty] at hlength
  cases hlength

end EnterpriseSystem
