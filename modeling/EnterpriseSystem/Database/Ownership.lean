import EnterpriseSystem.Base.Run
import EnterpriseSystem.Database.RoleChange

/-!
# The last owner

An organization without an active owner has nobody left who may give it one.
Ownership changes in two ways, by `change_member_role` and by a `DELETE` that the
policy of the members allows; neither of them counts owners.

* `MemberCall` — a call of one of the two; `MemberCall.step` — what it does.
* `SparesLastOwner` — the condition under which a call leaves an owner behind:
  the only active owner is not given another role, and an owner who is not active
  does not remove all that are.
* `owner_remains` — the result for runs.
-/

namespace EnterpriseSystem

open Relational Concurrency

/-! ## Removing members -/

/-- The policy `org_members_delete_owner`: the row belongs to the caller's
organization and to somebody else, and the caller has the role of an owner
there. -/
def orgMembersDeleteOwner (ctx : Context) (uid : Uuid) (db : Db) (m : OrganizationMember) : Prop :=
  authOrgId ctx = some m.orgId ∧ db.organizationMembers.rows.any (fun m' =>
    decide (authOrgId ctx = some m'.orgId ∧ m'.userId = uid ∧ m'.role = .owner)) = true ∧
      m.userId ≠ uid

instance (ctx : Context) (uid : Uuid) (db : Db) : DecidablePred (orgMembersDeleteOwner ctx uid db) :=
  fun _ => inferInstanceAs (Decidable (_ ∧ _ ∧ _))

/-- `DELETE FROM public.organization_members WHERE condition`, by a caller to whom
the policy applies. -/
def deleteMembers (ctx : Context) (condition : OrganizationMember → Bool) (db : Db) :
    Except PgError Db := do
  let uid ← authUid ctx
  return { db with
    organizationMembers := db.organizationMembers.remove fun m =>
      condition m = true ∧ orgMembersDeleteOwner ctx uid db m }

/-! ## Calls -/

/-- A call that may change who the owners are. -/
inductive MemberCall where
  | changeMemberRole (m : RoleMigration) (ctx : Context) (orgId userId : Option Uuid)
      (newRole : Option UserRole)
  | deleteMembers (ctx : Context) (condition : OrganizationMember → Bool)

/-- What a call does to the database: nothing when it raises an error. -/
def MemberCall.step (db : Db) : MemberCall → Db
  | changeMemberRole m ctx orgId userId newRole =>
    match (EnterpriseSystem.changeMemberRole m ctx orgId userId newRole).exec db with
    | .ok (_, db') => db'
    | .error _ => db
  | deleteMembers ctx condition =>
    match EnterpriseSystem.deleteMembers ctx condition db with
    | .ok db' => db'
    | .error _ => db

/-- An active owner of the organization. -/
def OrganizationMember.Owns (m : OrganizationMember) (o : Uuid) : Prop :=
  m.orgId = o ∧ m.role = .owner ∧ m.isActive = true

instance (m : OrganizationMember) (o : Uuid) : Decidable (m.Owns o) :=
  inferInstanceAs (Decidable (_ ∧ _ ∧ _))

/-- The organization has an active owner. -/
def HasOwner (o : Uuid) (db : Db) : Prop := ∃ m ∈ db.organizationMembers, m.Owns o

/-- A call that changes a role keeps the role of an owner, or there is another
owner than the member it is about; and a caller whose own ownership is not active
does not remove every active owner. -/
def SparesLastOwner (o : Uuid) (db : Db) : MemberCall → Prop
  | .changeMemberRole _ ctx orgId userId newRole => ∀ u old role, ctx.session.sub = some u →
      IsRoleChange ctx u orgId userId newRole db old role →
        role = .owner ∨ ∃ m ∈ db.organizationMembers, m.Owns o ∧ m.key ≠ old.key
  | .deleteMembers ctx condition => ∀ u m, ctx.session.sub = some u → authOrgId ctx = some o →
      db.organizationMembers.get? (o, u) = some m → m.role = .owner → m.isActive = false →
        ∃ m' ∈ db.organizationMembers, m'.Owns o ∧ condition m' = false

/-! ## One call -/

/-- **A change of role** that spares the last owner leaves one behind. -/
theorem HasOwner.changeMemberRole {o : Uuid} {db : Db} (h : HasOwner o db) {m : RoleMigration}
    {ctx : Context} {orgId userId : Option Uuid} {newRole : Option UserRole}
    (hspares : SparesLastOwner o db (.changeMemberRole m ctx orgId userId newRole)) :
    HasOwner o (MemberCall.step db (.changeMemberRole m ctx orgId userId newRole)) := by
  cases hexec : (EnterpriseSystem.changeMemberRole m ctx orgId userId newRole).exec db with
  | error e =>
    simp only [MemberCall.step, hexec]
    exact h
  | ok r =>
    obtain ⟨new, db'⟩ := r
    simp only [MemberCall.step, hexec]
    obtain ⟨u, old, role, hsub, hchange, hmembers⟩ := changeMemberRole_ok hexec
    have hstays : ∀ m ∈ db.organizationMembers, m.key ≠ old.key → m ∈ db'.organizationMembers := by
      intro m hm hne
      rw [hmembers]
      exact Table.mem_put_iff.2 (Or.inr ⟨hm, hne⟩)
    rcases hspares u old role hsub hchange with rfl | ⟨other, hother, howns, hne⟩
    · obtain ⟨owner, howner, howns⟩ := h
      by_cases hkey : owner.key = old.key
      · -- the member it is about is the owner, and stays one
        obtain ⟨_, -, hrow⟩ := Option.bind_eq_some_iff.1 hchange.row
        obtain ⟨_, -, hrow⟩ := Option.bind_eq_some_iff.1 hrow
        obtain rfl := Table.eq_of_key_eq howner (Table.mem_of_get? hrow) hkey
        refine ⟨{ owner with role := .owner, updatedAt := ctx.now }, ?_, howns.1, rfl, howns.2.2⟩
        rw [hmembers]
        exact Table.mem_put_self _ _
      · exact ⟨owner, hstays owner howner hkey, howns⟩
    · exact ⟨other, hstays other hother hne, howns⟩

/-- **A removal** that spares the last owner leaves one behind. -/
theorem HasOwner.deleteMembers {o : Uuid} {db : Db} (h : HasOwner o db) {ctx : Context}
    {condition : OrganizationMember → Bool}
    (hspares : SparesLastOwner o db (.deleteMembers ctx condition)) :
    HasOwner o (MemberCall.step db (.deleteMembers ctx condition)) := by
  cases hsub : ctx.session.sub with
  | none =>
    simp only [MemberCall.step, EnterpriseSystem.deleteMembers, authUid, hsub]
    exact h
  | some u =>
    simp only [MemberCall.step, EnterpriseSystem.deleteMembers, authUid_of_sub hsub]
    obtain ⟨owner, howner, howns⟩ := h
    by_cases hpolicy : orgMembersDeleteOwner ctx u db owner
    · obtain ⟨hclaim, hcaller, -⟩ := hpolicy
      rw [howns.1] at hclaim
      obtain ⟨caller, hmem, hrow⟩ := List.any_eq_true.1 hcaller
      obtain ⟨horg, huser, hrole⟩ := of_decide_eq_true hrow
      have horg : caller.orgId = o := (Option.some.inj (hclaim.symm.trans horg)).symm
      have hkey : caller.key = (o, u) := Prod.ext horg huser
      by_cases hactive : caller.isActive = true
      · -- nobody removes himself
        refine ⟨caller, Table.mem_remove_iff.2 ⟨hmem, fun hc => ?_⟩, horg, hrole, hactive⟩
        exact hc.2.2.2 huser
      · obtain ⟨other, hother, howns', hcondition⟩ := hspares u caller hsub hclaim
          (hkey ▸ Table.get?_of_mem hmem) hrole (Bool.eq_false_of_not_eq_true hactive)
        refine ⟨other, Table.mem_remove_iff.2 ⟨hother, fun hc => ?_⟩, howns'⟩
        rw [hc.1] at hcondition
        cases hcondition
    · exact ⟨owner, Table.mem_remove_iff.2 ⟨howner, fun hc => hpolicy hc.2⟩, howns⟩

/-! ## Runs -/

/-- **An organization keeps an owner** in every state reached by calls that spare
the last one. -/
theorem owner_remains {o : Uuid} {db db' : Db} (hstart : HasOwner o db)
    (h : Reach (Deterministic MemberCall.step) (SparesLastOwner o) db db') : HasOwner o db' := by
  refine h.invariant hstart ?_
  rintro s c s' hs hspares rfl
  cases c with
  | changeMemberRole m ctx orgId userId newRole => exact hs.changeMemberRole hspares
  | deleteMembers ctx condition => exact hs.deleteMembers hspares

/-- The theorem at work: the owner removes everybody he may remove. -/
theorem owner_remains_alone :
    HasOwner 1 (MemberCall.step (.withMember .owner)
      (.deleteMembers (.plain true 5 1 0 100) fun _ => true)) := by
  have hstart : ((Db.withMember .owner).organizationMembers.rows.any
      fun m => decide (m.Owns 1)) = true := by decide +kernel
  have hactive : ((Db.withMember .owner).organizationMembers.rows.all
      fun m => m.isActive) = true := by decide +kernel
  obtain ⟨m, hm, howns⟩ := List.any_eq_true.1 hstart
  refine owner_remains ⟨m, hm, of_decide_eq_true howns⟩ (.next .start ?_ rfl)
  intro u caller _ _ hrow _ hinactive
  rw [List.all_eq_true.1 hactive caller (Table.mem_of_get? hrow)] at hinactive
  cases hinactive

/-- **The last owner resigns.**  The only owner makes himself a member. -/
theorem no_owner_resigned :
    ¬ ∀ o db db', HasOwner o db → Reach (Deterministic MemberCall.step) Always db db' →
      HasOwner o db' := by
  intro h
  let db := Db.withMember .owner
  have hstart : (db.organizationMembers.rows.any fun m => decide (m.Owns 1)) = true := by
    decide +kernel
  obtain ⟨m, hm, howns⟩ := List.any_eq_true.1 hstart
  let call : MemberCall :=
    .changeMemberRole .coreSchema (.plain true 5 1 0 100) (some 1) (some 5) (some .member)
  obtain ⟨m', hm', howns'⟩ := h 1 db (MemberCall.step db call) ⟨m, hm, of_decide_eq_true howns⟩
    (.next .start trivial rfl)
  have hnone : ((MemberCall.step db call).organizationMembers.rows.all
      fun m => decide (¬ m.Owns 1)) = true := by
    decide +kernel
  exact of_decide_eq_true (List.all_eq_true.1 hnone m' hm') howns'

end EnterpriseSystem
