import EnterpriseSystem.Database.Security

/-!
# Changing a member's role

`change_member_role`, the only function that changes a role, with the triggers
its `UPDATE` fires: `validate_role_change` (migration 004) before the row is
written and `monitor_privilege_changes` (009) after it.

The repository has the function and the first trigger twice, in
`00004_core_schema.sql` and in `00004_apply.sql`, with the same conditions and
different texts.  `RoleMigration` tells the two apart, and the texts of each are
functions of it; `changeMemberRole` is written once.
-/

namespace EnterpriseSystem

open Relational Concurrency

/-- The two migrations that define the functions of this module. -/
inductive RoleMigration where
  | coreSchema | apply
  deriving DecidableEq

namespace RoleMigration

/-! ## The texts of the two migrations -/

/-- The error of an exhausted rate limit. -/
def rateLimitMessage : RoleMigration → String
  | coreSchema => "Rate limit exceeded. Try again later."
  | apply => "Rate limit exceeded."

/-- The error of a caller who is neither owner nor admin. -/
def permissionMessage : RoleMigration → String
  | coreSchema => "Insufficient permissions to change roles."
  | apply => "Insufficient permissions."

/-- The error of an admin who promotes to owner. -/
def promotionMessage : RoleMigration → String
  | coreSchema => "Only the owner can assign the owner role."
  | apply => "Only owner can assign owner role."

/-- The error of a target who is no member. -/
def notFoundMessage : RoleMigration → String
  | coreSchema => "Member not found in organization."
  | apply => "Member not found."

/-- The event logged about an attempt to assign the owner role. -/
def assignmentDescription (uid : Uuid) : RoleMigration → String
  | coreSchema => "User " ++ uid.text ++ " attempted to assign owner role without being owner"
  | apply => "User " ++ uid.text ++ " attempted to assign owner role"

def assignmentMetadata (new : OrganizationMember) (actorRole : Option UserRole) :
    RoleMigration → JsonObject
  | coreSchema => [("target_user", .ofUuid new.userId), ("org", .ofUuid new.orgId),
      ("actor_role", .ofText (actorRole.map UserRole.label))]
  | apply => [("target", .ofUuid new.userId), ("org", .ofUuid new.orgId)]

def demotionMetadata (old : OrganizationMember) : RoleMigration → JsonObject
  | coreSchema => [("target_user", .ofUuid old.userId), ("org", .ofUuid old.orgId)]
  | apply => [("target", .ofUuid old.userId), ("org", .ofUuid old.orgId)]

end RoleMigration

/-! ## The triggers -/

/-- The role of `userId` among the active members of an organization, `NULL`
when there is none. -/
def activeRole (orgId : Option Uuid) (userId : Uuid) (db : Db) : Option UserRole :=
  ((orgId.bind fun o => db.organizationMembers.get? (o, userId)).filter (·.isActive)).map (·.role)

/-- `public.validate_role_change`, before `new` is inserted (`old` is `none`) or
replaces `old`. -/
def validateRoleChange (m : RoleMigration) (ctx : Context) (old : Option OrganizationMember)
    (new : OrganizationMember) : Rpc Unit := do
  onlyIf (∃ o ∈ old, new.orgId ≠ o.orgId) do
    throw (.raised "Cannot change organization membership." [] "42501" [])
  onlyIf (∃ o ∈ old, new.userId ≠ o.userId) do
    throw (.raised "Cannot change membership user." [] "42501" [])
  let uid ← evaluate (authUid ctx)
  let actorRole ← select (activeRole (some new.orgId) uid)
  onlyIf (new.role = .owner ∧ (sqlNe actorRole (some .owner)).Holds) do
    let _ ← logSecurityEvent ctx (ctx.uuid 1) .privilegeEscalationAttempt .critical
      (m.assignmentDescription uid) (m.assignmentMetadata new actorRole) "blocked"
    throw (.raised "Only the organization owner can assign the owner role." [] "42501" [])
  match old with
  | none => return ()
  | some o =>
    onlyIf (o.role = .owner ∧ new.role ≠ .owner ∧ (sqlNe actorRole (some .owner)).Holds) do
      let _ ← logSecurityEvent ctx (ctx.uuid 1) .privilegeEscalationAttempt .critical
        ("User " ++ uid.text ++ " attempted to demote owner " ++ o.userId.text)
        (m.demotionMetadata o) "blocked"
      throw (.raised "Only the owner can demote another owner." [] "42501" [])
    onlyIf (o.role ≠ new.role) do
      let _ ← writeAuditLog ctx (ctx.uuid 2) .update "organization_members" (some new.id)
        (some [("role", .text o.role.label)]) (some [("role", .text new.role.label)])

/-- `public.monitor_privilege_changes`, after `new` has replaced `old`. -/
def monitorPrivilegeChanges (ctx : Context) (old new : OrganizationMember) : Rpc Unit :=
  onlyIf (old.role ≠ new.role) do
    let uid ← evaluate (authUid ctx)
    let _ ← logSecurityEvent ctx (ctx.uuid 3) .roleChange .high
      ("Role changed from " ++ old.role.label ++ " to " ++ new.role.label ++ " for user " ++
        new.userId.text ++ " in org " ++ new.orgId.text)
      [("old_role", .text old.role.label), ("new_role", .text new.role.label),
        ("user_id", .ofUuid new.userId), ("org_id", .ofUuid new.orgId),
        ("changed_by", .ofUuid uid)]
      "alerted"

/-! ## The function -/

/-- The member row with a given organization and user. -/
def memberRow (orgId userId : Option Uuid) (db : Db) : Option OrganizationMember :=
  orgId.bind fun o => userId.bind fun u => db.organizationMembers.get? (o, u)

/-- `UPDATE public.organization_members SET role = …, updated_at = now() WHERE
org_id = … AND user_id = … RETURNING *`, with its triggers. -/
def updateMemberRole (m : RoleMigration) (ctx : Context) (orgId userId : Option Uuid)
    (newRole : Option UserRole) : Rpc (Option OrganizationMember) := do
  let row ← statement
    (fun db => ((memberRow orgId userId db).map fun r => .row .organizationMembers r.id).toList)
    fun db => .ok ([], memberRow orgId userId db)
  match row with
  | none => return none
  | some old =>
    -- on a `NULL` role every condition of the trigger is unknown, so the row
    -- gets to the `NOT NULL` constraint and is stopped there
    let role ← evaluate (notNull "organization_members" "role" newRole)
    let new := { old with role, updatedAt := ctx.now }
    validateRoleChange m ctx (some old) new
    statement (fun _ => []) fun _ => .ok ([.organizationMember new], ())
    monitorPrivilegeChanges ctx old new
    return some new

/-- `public.change_member_role`. -/
def changeMemberRole (m : RoleMigration) (ctx : Context) (orgId userId : Option Uuid)
    (newRole : Option UserRole) : Rpc OrganizationMember := do
  let uid ← evaluate (authUid ctx)
  let allowed ← checkRateLimit ctx (some ("role_change:" ++ uid.text))
    (some ⟨5, Int4.fits_five⟩) (some ⟨1, Int4.fits_one⟩)
  onlyIf allowed.not.Holds do
    -- only the function of the core schema logs the attempt
    onlyIf (m = .coreSchema) do
      let _ ← logSecurityEvent ctx (ctx.uuid 0) .rateLimitExceeded .medium
        "Role change rate limit exceeded"
        [("actor", .ofUuid uid), ("target", .ofUuid userId)] "logged"
    throw (.raised m.rateLimitMessage [] "57014" [])
  let actorRole ← select (activeRole orgId uid)
  onlyIf (sqlNotIn actorRole [.owner, .admin]).Holds do
    throw (.raised m.permissionMessage [] "42501" [])
  onlyIf ((sqlEq newRole (some .owner)).and (sqlNe actorRole (some .owner))).Holds do
    throw (.raised m.promotionMessage [] "42501" [])
  let result ← updateMemberRole m ctx orgId userId newRole
  match result with
  | none => throw (.raised m.notFoundMessage [] "P0002" [])
  | some result => return result

end EnterpriseSystem
