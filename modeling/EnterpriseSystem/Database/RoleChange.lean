import EnterpriseSystem.Database.Membership
import EnterpriseSystem.Database.RateLimit

/-!
# Who can change a role

When `change_member_role` goes through, and what that says about its caller.
The decision is spread over the function and the trigger its `UPDATE` fires, and
every condition in it compares the caller's role.  A caller without an active
membership has no role: the comparisons are unknown, no `IF` takes an unknown
condition, and all checks are passed.

* `IsRoleUpdate` — the conditions under which the `UPDATE` and its triggers go
  through; `updateMemberRole_goesThrough` says that they are exact.
* `IsRoleChange` — the same for the whole function.
* `RoleChangeAuthorized` — what a successful call owes: its caller was an active
  owner or admin, and an owner where an owner is made or unmade.
* `roleChangeAuthorized_iff` — it holds of callers with an active membership,
  and of the others only when the call fails for a reason that has nothing to do
  with them.
-/

namespace EnterpriseSystem

open Relational Concurrency

/-! ## When the function goes through -/

/-- Giving the role `role` to the row `old` passes the trigger, for a caller
whose active role is `actorRole`. -/
def PassesRoleTrigger (actorRole : Option UserRole) (old : OrganizationMember) (role : UserRole) :
    Prop :=
  ¬ (role = .owner ∧ (sqlNe actorRole (some .owner)).Holds) ∧
    ¬ (old.role = .owner ∧ role ≠ .owner ∧ (sqlNe actorRole (some .owner)).Holds)

/-- The logs of a role change can be written: the names they use are found, and
the identifiers generated for them are not in use. -/
def CanLogRoleChange (ctx : Context) (db : Db) : Prop :=
  ctx.server.resolvesUnqualified = true ∧ db.auditLog.get? (ctx.uuid 2) = none ∧
    db.securityEvents.get? (ctx.uuid 3) = none

/-- The `UPDATE` of the row `old` to the role `role` goes through for the caller
`u`. -/
structure IsRoleUpdate (ctx : Context) (u : Uuid) (orgId userId : Option Uuid)
    (newRole : Option UserRole) (db : Db) (old : OrganizationMember) (role : UserRole) : Prop where
  row : memberRow orgId userId db = some old
  given : newRole = some role
  trigger : PassesRoleTrigger (activeRole orgId u db) old role
  logged : old.role ≠ role → CanLogRoleChange ctx db

/-- The whole function goes through. -/
structure IsRoleChange (ctx : Context) (u : Uuid) (orgId userId : Option Uuid)
    (newRole : Option UserRole) (db : Db) (old : OrganizationMember) (role : UserRole) : Prop
    extends IsRoleUpdate ctx u orgId userId newRole db old role where
  limit : Admits ctx.now (db.rateLimits.get? ("role_change:" ++ u.text))
  permission : ¬ (sqlNotIn (activeRole orgId u db) [.owner, .admin]).Holds
  promotion :
    ¬ ((sqlEq newRole (some .owner)).and (sqlNe (activeRole orgId u db) (some .owner))).Holds

/-- The row the trigger writes to the audit log. -/
def roleAuditEntry (ctx : Context) (u : Uuid) (old : OrganizationMember) (role : UserRole)
    (db : Db) : AuditEntry :=
  newAuditEntry ctx u (ctx.uuid 2) .update "organization_members" (some old.id)
    (some [("role", .text old.role.label)]) (some [("role", .text role.label)])
    ((ctx.server.latestFirst.sort db.auditLog.rows).head?.map (·.rowHash))

section

variable {m : RoleMigration} {ctx : Context} {u : Uuid} {orgId userId : Option Uuid}
  {newRole : Option UserRole} {db db' : Db}

theorem memberRow_orgId {old : OrganizationMember} (h : memberRow orgId userId db = some old) :
    orgId = some old.orgId := by
  obtain ⟨o, ho, h⟩ := Option.bind_eq_some_iff.1 h
  obtain ⟨v, -, h⟩ := Option.bind_eq_some_iff.1 h
  have hkey : old.key = (o, v) := Table.key_of_get? h
  exact ho.trans (congrArg some (congrArg Prod.fst hkey).symm)

/-- **The trigger before the update** passes the row, and writes an audit row
when the role changes. -/
theorem validateRoleChange_eq_ok (hsub : ctx.session.sub = some u) {old : OrganizationMember}
    {role : UserRole} {x : Unit} :
    (validateRoleChange m ctx (some old) { old with role, updatedAt := ctx.now }).exec db =
      .ok (x, db') ↔
      PassesRoleTrigger (activeRole (some old.orgId) u db) old role ∧
        ((old.role ≠ role ∧ ctx.server.resolvesUnqualified = true ∧
            db.auditLog.get? (ctx.uuid 2) = none ∧
            db' = db.apply (.auditEntry (roleAuditEntry ctx u old role db))) ∨
          (old.role = role ∧ db' = db)) := by
  simp only [validateRoleChange, Option.mem_some_iff, exists_eq_left', ne_eq, not_true,
    execute_bind_eq_ok, execute_evaluate_eq_ok, authUid_of_sub hsub, execute_select_eq_ok,
    execute_onlyIf_eq_ok_of_raises _ fun _ _ => execute_bind_throw_ne_ok _, execute_onlyIf_eq_ok,
    execute_throw_ne_ok, writeAuditLog_eq_ok hsub, execute_pure_eq_ok, and_false, not_false_iff,
    true_and, false_or, exists_const, Except.ok.injEq]
  constructor
  · rintro ⟨_, rfl, _, rfl, _, _, ⟨rfl, rfl⟩, _, _, ⟨rfl, rfl⟩, _, ⟨hpromote, rfl⟩, _,
      ⟨hdemote, rfl⟩, ⟨hrole, _, _, ⟨hresolves, hid, -, rfl⟩, rfl⟩ | ⟨hrole, rfl⟩⟩
    · exact ⟨⟨hpromote, hdemote⟩, .inl ⟨hrole, hresolves, hid, rfl⟩⟩
    · exact ⟨⟨hpromote, hdemote⟩, .inr ⟨not_not.1 hrole, rfl⟩⟩
  · rintro ⟨⟨hpromote, hdemote⟩, h⟩
    refine ⟨_, rfl, _, rfl, _, _, ⟨rfl, rfl⟩, _, _, ⟨rfl, rfl⟩, _, ⟨hpromote, rfl⟩, _,
      ⟨hdemote, rfl⟩, ?_⟩
    rcases h with ⟨hrole, hresolves, hid, rfl⟩ | ⟨hrole, rfl⟩
    · exact .inl ⟨hrole, _, _, ⟨hresolves, hid, rfl, rfl⟩, rfl⟩
    · exact .inr ⟨not_not.2 hrole, rfl⟩

/-- **The trigger after the update** stops a change of role that it cannot log. -/
theorem monitorPrivilegeChanges_goesThrough (hsub : ctx.session.sub = some u)
    {old : OrganizationMember} {role : UserRole} :
    (∃ x db', (monitorPrivilegeChanges ctx old { old with role, updatedAt := ctx.now }).exec db =
      .ok (x, db')) ↔
      (old.role ≠ role → ctx.server.resolvesUnqualified = true ∧
        db.securityEvents.get? (ctx.uuid 3) = none) := by
  simp only [monitorPrivilegeChanges, execute_onlyIf_eq_ok, execute_bind_eq_ok,
    execute_evaluate_eq_ok, authUid_of_sub hsub, logSecurityEvent_eq_ok hsub, execute_pure_eq_ok,
    Except.ok.injEq]
  constructor
  · rintro ⟨_, _, ⟨-, _, _, ⟨-, rfl⟩, _, _, ⟨hresolves, hid, -⟩, -⟩ | ⟨hrole, -⟩⟩ hne
    · exact ⟨hresolves, hid⟩
    · exact absurd hne hrole
  · intro h
    by_cases hrole : old.role = role
    · exact ⟨(), db, .inr ⟨not_not.2 hrole, rfl⟩⟩
    · obtain ⟨hresolves, hid⟩ := h hrole
      exact ⟨(), _, .inl ⟨hrole, _, _, ⟨rfl, rfl⟩, _, _, ⟨hresolves, hid, rfl, rfl⟩, trivial, rfl⟩⟩

/-- **When the `UPDATE` goes through**, with a row to return. -/
theorem updateMemberRole_goesThrough (hsub : ctx.session.sub = some u) :
    (∃ new db', (updateMemberRole m ctx orgId userId newRole).exec db = .ok (some new, db')) ↔
      ∃ old role, IsRoleUpdate ctx u orgId userId newRole db old role := by
  unfold Rpc.exec
  cases hold : memberRow orgId userId db with
  | none =>
    have hexec : execute Db.apply (updateMemberRole m ctx orgId userId newRole) db =
        .ok (none, db) := by
      rw [updateMemberRole, execute_bind, execute_statement]
      simp only [hold]
      rfl
    rw [hexec]
    constructor
    · rintro ⟨_, _, h⟩
      cases h
    · rintro ⟨old, role, h⟩
      cases hold.symm.trans h.row
  | some old =>
    have hexec : execute Db.apply (updateMemberRole m ctx orgId userId newRole) db =
        execute Db.apply (do
          let role ← evaluate (notNull "organization_members" "role" newRole)
          let new := { old with role, updatedAt := ctx.now }
          validateRoleChange m ctx (some old) new
          statement (fun _ => []) fun _ => .ok ([.organizationMember new], ())
          monitorPrivilegeChanges ctx old new
          return some new) db := by
      rw [updateMemberRole, execute_bind, execute_statement]
      simp only [hold]
      rfl
    simp only [hexec, execute_bind_eq_ok, execute_evaluate_eq_ok, validateRoleChange_eq_ok hsub,
      execute_statement_eq_ok, execute_pure_eq_ok, notNull_ok, ← memberRow_orgId hold]
    constructor
    · rintro ⟨_, _, role, _, ⟨hrole, rfl⟩, _, _, ⟨htrigger, haudit⟩, _, _, ⟨_, hwrite, rfl⟩,
        _, _, hmonitor, -, -⟩
      have hlog := (monitorPrivilegeChanges_goesThrough hsub).1 ⟨_, _, hmonitor⟩
      cases hwrite
      refine ⟨old, role, hold, hrole, htrigger, fun hne => ?_⟩
      rcases haudit with ⟨-, hresolves, hid, rfl⟩ | ⟨heq, -⟩
      · exact ⟨hresolves, hid, (hlog hne).2⟩
      · exact absurd heq hne
    · rintro ⟨old', role, hrow, hrole, htrigger, hlogged⟩
      cases hold.symm.trans hrow
      have hmonitor : ∀ db', db'.securityEvents = db.securityEvents → ∃ x db'',
          (monitorPrivilegeChanges ctx old { old with role, updatedAt := ctx.now }).exec db' =
            .ok (x, db'') := by
        intro db' heq
        refine (monitorPrivilegeChanges_goesThrough hsub).2 fun hne => ?_
        rw [heq]
        exact ⟨(hlogged hne).1, (hlogged hne).2.2⟩
      by_cases hne : old.role = role
      · obtain ⟨_, db', hmonitor⟩ :=
          hmonitor (db.apply (.organizationMember { old with role, updatedAt := ctx.now })) rfl
        exact ⟨_, _, role, _, ⟨hrole, rfl⟩, (), _, ⟨htrigger, .inr ⟨hne, rfl⟩⟩, (), _,
          ⟨_, rfl, rfl⟩, (), _, hmonitor, rfl, rfl⟩
      · obtain ⟨_, db', hmonitor⟩ := hmonitor ((db.apply (.auditEntry
          (roleAuditEntry ctx u old role db))).apply
            (.organizationMember { old with role, updatedAt := ctx.now })) rfl
        exact ⟨_, _, role, _, ⟨hrole, rfl⟩, (), _,
          ⟨htrigger, .inl ⟨hne, (hlogged hne).1, (hlogged hne).2.1, rfl⟩⟩, (), _,
          ⟨_, rfl, rfl⟩, (), _, hmonitor, rfl, rfl⟩

/-- **When the function goes through.** -/
theorem changeMemberRole_goesThrough (hsub : ctx.session.sub = some u) :
    (∃ r, (changeMemberRole m ctx orgId userId newRole).exec db = .ok r) ↔
      ∃ old role, IsRoleChange ctx u orgId userId newRole db old role := by
  have hrefuse : ∀ {p : Rpc Unit} {e : PgError} db r,
      Rpc.exec (do p; throw e : Rpc Unit) db ≠ .ok r :=
    fun _ _ => execute_bind_throw_ne_ok _
  -- the row of the bucket is no part of what the rest of the call reads
  have hupdate : ∀ (row : RateLimit) {old : OrganizationMember} {role : UserRole},
      IsRoleUpdate ctx u orgId userId newRole (db.apply (.rateLimit row)) old role ↔
        IsRoleUpdate ctx u orgId userId newRole db old role :=
    fun _ {_ _} => ⟨fun ⟨a, b, c, d⟩ => ⟨a, b, c, d⟩, fun ⟨a, b, c, d⟩ => ⟨a, b, c, d⟩⟩
  rw [changeMemberRole, authUid_of_sub hsub]
  simp only [Rpc.exec, execute_evaluate_ok_bind]
  simp only [execute_rateLimited ⟨5, by decide⟩ (by decide) hrefuse]
  simp only [Rpc.exec, execute_select_bind, Prod.exists]
  constructor
  · rintro ⟨x, db', row, htake, htokens, h⟩
    rw [execute_bind_eq_ok] at h
    obtain ⟨_, _, hpermission, h⟩ := h
    rw [execute_onlyIf_throw_eq_ok] at hpermission
    obtain ⟨hpermission, rfl⟩ := hpermission
    rw [execute_bind_eq_ok] at h
    obtain ⟨_, _, hpromotion, h⟩ := h
    rw [execute_onlyIf_throw_eq_ok] at hpromotion
    obtain ⟨hpromotion, rfl⟩ := hpromotion
    rw [execute_bind_eq_ok] at h
    obtain ⟨result, db₁, hresult, h⟩ := h
    cases result with
    | none => cases h
    | some new =>
      obtain ⟨old, role, hold⟩ := (updateMemberRole_goesThrough hsub).1 ⟨new, db₁, hresult⟩
      exact ⟨old, role, (hupdate row).1 hold, (admits_iff _ _ ctx db (by decide)).2 ⟨row, htake, htokens⟩,
        hpermission, hpromotion⟩
  · rintro ⟨old, role, hold, hlimit, hpermission, hpromotion⟩
    obtain ⟨row, htake, htokens⟩ :=
      (admits_iff ⟨5, by decide⟩ ⟨1, by decide⟩ ctx db (by decide)).1 hlimit
    obtain ⟨new, db', hexec⟩ := (updateMemberRole_goesThrough (m := m) hsub).2
      ⟨old, role, (hupdate row).2 hold⟩
    refine ⟨new, db', row, htake, htokens, ?_⟩
    rw [execute_bind_eq_ok]
    refine ⟨(), _, (execute_onlyIf_throw_eq_ok _).2 ⟨hpermission, rfl⟩, ?_⟩
    rw [execute_bind_eq_ok]
    refine ⟨(), _, (execute_onlyIf_throw_eq_ok _).2 ⟨hpromotion, rfl⟩, ?_⟩
    rw [execute_bind_eq_ok]
    exact ⟨some new, db', hexec, rfl⟩

/-! ## What it does to the members -/

theorem quiet_monitorPrivilegeChanges (ctx : Context) (old new : OrganizationMember) :
    (monitorPrivilegeChanges ctx old new).Quiet :=
  Call.Within.onlyIf fun _ => Call.Within.bind (Call.within_evaluate fun _ => isSystem_of_authUid)
    fun _ => Call.Within.bind (quiet_logSecurityEvent _ _ _ _ _ _ _) fun _ => Call.within_pure _

/-- An `UPDATE` that goes through writes the row with its new role. -/
theorem updateMemberRole_ok (hsub : ctx.session.sub = some u) {new : OrganizationMember}
    (h : (updateMemberRole m ctx orgId userId newRole).exec db = .ok (some new, db')) :
    ∃ old role, memberRow orgId userId db = some old ∧ newRole = some role ∧
      new = { old with role, updatedAt := ctx.now } ∧
      db'.organizationMembers = db.organizationMembers.put new := by
  rw [updateMemberRole, execute_bind_eq_ok] at h
  obtain ⟨row, db₁, hlock, h⟩ := h
  rw [execute_statement_eq_ok] at hlock
  obtain ⟨ws, hlock, rfl⟩ := hlock
  cases hlock
  cases hrow : memberRow orgId userId db with
  | none =>
    rw [hrow] at h
    cases h
  | some old =>
    rw [hrow] at h
    simp only [view_nil, execute_bind_eq_ok, execute_evaluate_eq_ok, validateRoleChange_eq_ok hsub,
      execute_statement_eq_ok, execute_pure_eq_ok, notNull_ok] at h
    obtain ⟨role, _, ⟨hrole, rfl⟩, _, db₂, ⟨-, haudit⟩, _, _, ⟨_, hwrite, rfl⟩, _, db₃, hmonitor,
      hnew, rfl⟩ := h
    cases hwrite
    cases hnew
    have hmembers₃ := (execute_quiet (quiet_monitorPrivilegeChanges _ _ _) hmonitor)
    obtain ⟨_, _, _, rfl⟩ := hmembers₃
    refine ⟨old, role, rfl, hrole, rfl, ?_⟩
    rcases haudit with ⟨-, -, -, rfl⟩ | ⟨-, rfl⟩ <;> rfl

/-- **A call that goes through** is a role change, and writes the row with its
new role. -/
theorem changeMemberRole_ok {new : OrganizationMember}
    (h : (changeMemberRole m ctx orgId userId newRole).exec db = .ok (new, db')) :
    ∃ u old role, ctx.session.sub = some u ∧
      IsRoleChange ctx u orgId userId newRole db old role ∧
      db'.organizationMembers =
        db.organizationMembers.put { old with role, updatedAt := ctx.now } := by
  have huid : ∃ u, ctx.session.sub = some u := by
    rw [changeMemberRole, execute_bind_eq_ok] at h
    obtain ⟨u, _, hu, -⟩ := h
    rw [execute_evaluate_eq_ok] at hu
    cases hsub : ctx.session.sub with
    | some u => exact ⟨u, rfl⟩
    | none =>
      rw [authUid, hsub] at hu
      cases hu.1
  obtain ⟨u, hsub⟩ := huid
  obtain ⟨old, role, hchange⟩ := (changeMemberRole_goesThrough hsub).1 ⟨_, h⟩
  refine ⟨u, old, role, hsub, hchange, ?_⟩
  rw [changeMemberRole, authUid_of_sub hsub] at h
  simp only [Rpc.exec, execute_evaluate_ok_bind] at h
  obtain ⟨row, -, -, h⟩ := (execute_rateLimited ⟨5, by decide⟩ (by decide)
    fun _ _ => execute_bind_throw_ne_ok _).1 h
  simp only [Rpc.exec, execute_select_bind, execute_bind_eq_ok, execute_onlyIf_throw_eq_ok] at h
  obtain ⟨_, _, ⟨-, rfl⟩, _, _, ⟨-, rfl⟩, result, db₁, hresult, h⟩ := h
  cases result with
  | none => cases h
  | some new' =>
    cases h
    obtain ⟨old', role', hrow, hrole, rfl, hmembers⟩ := updateMemberRole_ok hsub hresult
    cases hchange.row.symm.trans hrow
    cases hchange.given.symm.trans hrole
    exact hmembers

/-! ## What it says about the caller -/

/-- What a call that succeeds owes: the caller was an active owner or admin of
the organization, and an owner when an owner is made or unmade. -/
def RoleChangeAuthorized (m : RoleMigration) (ctx : Context) (u : Uuid)
    (orgId userId : Option Uuid) (newRole : Option UserRole) (db : Db) : Prop :=
  ∀ r, (changeMemberRole m ctx orgId userId newRole).exec db = .ok r →
    ∃ role, activeRole orgId u db = some role ∧ role ∈ [.owner, .admin] ∧
      ∀ old, memberRow orgId userId db = some old →
        newRole = some .owner ∨ (old.role = .owner ∧ newRole ≠ some .owner) → role = .owner

/-- The call would go through for a caller whom no check stops: the rate limit
admits it, the target is a member, a role is given, and a change of role can be
logged. -/
def RoleChangeReady (ctx : Context) (u : Uuid) (orgId userId : Option Uuid)
    (newRole : Option UserRole) (db : Db) : Prop :=
  Admits ctx.now (db.rateLimits.get? ("role_change:" ++ u.text)) ∧
    ∃ old role, memberRow orgId userId db = some old ∧ newRole = some role ∧
      (old.role ≠ role → CanLogRoleChange ctx db)

/-- **A caller with an active role** who passes the checks has the role they ask
for. -/
theorem IsRoleChange.authorized {old : OrganizationMember} {role actor : UserRole}
    (h : IsRoleChange ctx u orgId userId newRole db old role)
    (hactor : activeRole orgId u db = some actor) :
    actor ∈ [UserRole.owner, .admin] ∧
      (newRole = some .owner ∨ (old.role = .owner ∧ newRole ≠ some .owner) → actor = .owner) := by
  obtain ⟨⟨-, rfl, ⟨-, hdemote⟩, -⟩, -, hpermission, hpromotion⟩ := h
  rw [hactor] at hdemote hpermission hpromotion
  constructor
  · by_contra hmem
    exact hpermission (holds_sqlNotIn.2 ⟨actor, rfl, hmem⟩)
  · intro howner
    by_contra hne
    have hother : (sqlNe (some actor) (some .owner)).Holds :=
      holds_sqlNe.2 ⟨actor, .owner, rfl, rfl, hne⟩
    rcases howner with hnew | ⟨hold, hnew⟩
    · exact hpromotion ((Cond.holds_and _ _).2 ⟨holds_sqlEq.2 ⟨.owner, hnew, rfl⟩, hother⟩)
    · exact hdemote ⟨hold, fun h => hnew (congrArg some h), hother⟩

/-- **A caller without an active role** passes every check. -/
theorem isRoleChange_of_activeRole_eq_none (hactor : activeRole orgId u db = none)
    (hready : RoleChangeReady ctx u orgId userId newRole db) :
    ∃ old role, IsRoleChange ctx u orgId userId newRole db old role := by
  obtain ⟨hlimit, old, role, hrow, hgiven, hlogged⟩ := hready
  refine ⟨old, role, ⟨hrow, hgiven, ?_, hlogged⟩, hlimit, ?_, ?_⟩
  all_goals simp [hactor, PassesRoleTrigger]

/-- **Only callers with an active membership are checked.**  What a successful
call owes holds of a caller with an active role in the organization, and of any
other caller exactly when the call fails for reasons of its own. -/
theorem roleChangeAuthorized_iff (hsub : ctx.session.sub = some u) :
    RoleChangeAuthorized m ctx u orgId userId newRole db ↔
      activeRole orgId u db ≠ none ∨ ¬ RoleChangeReady ctx u orgId userId newRole db := by
  constructor
  · intro h
    by_contra hc
    obtain ⟨hactor, hready⟩ := not_or.1 hc
    have hgoes := isRoleChange_of_activeRole_eq_none (not_not.1 hactor) (not_not.1 hready)
    obtain ⟨r, hexec⟩ := (changeMemberRole_goesThrough (m := m) hsub).2 hgoes
    obtain ⟨role, hrole, -⟩ := h r hexec
    exact hactor (by rw [hrole]; exact Option.some_ne_none role)
  · intro h r hexec
    obtain ⟨old, role, hchange⟩ := (changeMemberRole_goesThrough hsub).1 ⟨r, hexec⟩
    cases hactor : activeRole orgId u db with
    | none =>
      refine absurd ?_ (h.resolve_left (not_not.2 hactor))
      exact ⟨hchange.limit, old, role, hchange.row, hchange.given, hchange.logged⟩
    | some actor =>
      obtain ⟨hmem, howner⟩ := hchange.authorized hactor
      refine ⟨actor, rfl, hmem, fun old' hrow => ?_⟩
      cases hchange.row.symm.trans hrow
      exact howner

end

/-- Organization `1` with the member `5`. -/
def Db.withMember (role : UserRole) : Db :=
  (Db.withOrganization ⟨1, .starter⟩).apply (.organizationMember {
    id := 50
    orgId := 1
    userId := 5
    role := role
    invitedBy := none
    invitedAt := none
    joinedAt := 0
    isActive := true
    deactivatedAt := none
    createdAt := 0
    updatedAt := 0 })

/-- The theorem at work: the owner makes himself a member. -/
theorem roleChangeAuthorized_iff_owner :
    RoleChangeAuthorized .coreSchema (.plain true 5 1 0 100) 5 (some 1) (some 5) (some .member)
        (.withMember .owner) ↔
      activeRole (some 1) 5 (.withMember .owner) ≠ none ∨
        ¬ RoleChangeReady (.plain true 5 1 0 100) 5 (some 1) (some 5) (some .member)
          (.withMember .owner) :=
  roleChangeAuthorized_iff rfl

/-- **A stranger makes an owner.**  User `9` is in no organization, and makes
the member `5` of organization `1` its owner. -/
theorem roleChange_byStranger :
    ¬ ∀ m ctx u orgId userId newRole db, ctx.session.sub = some u →
      RoleChangeAuthorized m ctx u orgId userId newRole db := by
  intro h
  have hexec : ((changeMemberRole .coreSchema (.plain true 9 1 0 100) (some 1) (some 5)
      (some .owner)).exec (.withMember .member)).toOption.isSome = true := by
    decide +kernel
  cases hcall : (changeMemberRole .coreSchema (.plain true 9 1 0 100) (some 1) (some 5)
      (some .owner)).exec (.withMember .member) with
  | error e =>
    rw [hcall] at hexec
    cases hexec
  | ok r =>
    obtain ⟨role, hrole, -⟩ := h _ _ 9 _ _ _ _ rfl r hcall
    have hnone : activeRole (some 1) 9 (.withMember .member) = none := by decide +kernel
    rw [hnone] at hrole
    cases hrole

end EnterpriseSystem
