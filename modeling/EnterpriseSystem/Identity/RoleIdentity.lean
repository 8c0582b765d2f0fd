import EnterpriseSystem.Identity.Lifecycle

/-!
# Roles as identities

A role is assigned once.  The aggregate compares the texts of two identifiers, while
the database compares the UUIDs they spell, and `fromString` lets every spelling
through.

* `UniqueId.Same` — two spellings of one UUID.
* `RolesDistinct` — no two assignments are of the same role.
* `Clocked.RolesUnique` — what a step has to leave behind: distinct roles, and after
  `removeRole` no spelling of the role that was removed.
* `rolesUnique_iff` — every step of a run does, exactly when no role is assigned or
  removed in another spelling than the one it is assigned in.
-/

namespace EnterpriseSystem.Identity

open Objects Relational

/-- Both identifiers spell the same UUID. -/
def UniqueId.Same (id id' : UniqueId) : Prop := id.dbUuid = id'.dbUuid

instance (id id' : UniqueId) : Decidable (id.Same id') := inferInstanceAs (Decidable (_ = _))

/-- No two assignments are of the same role. -/
def RolesDistinct (a : UserAggregate) : Prop := (a.roles.map fun r => r.roleId.dbUuid).Nodup

instance (a : UserAggregate) : Decidable (RolesDistinct a) := inferInstanceAs (Decidable (List.Nodup _))

/-- The role is not assigned in another spelling. -/
def UserAggregate.SpelledAs (a : UserAggregate) (roleId : UniqueId) : Prop :=
  ∀ r ∈ a.roles, r.roleId.Same roleId → r.roleId = roleId

/-- What a step has to leave behind. -/
structure Clocked.RolesUnique (l : AggregateCall × Moment) (s' : Clocked) : Prop where
  distinct : RolesDistinct s'.aggregate
  removed : ∀ roleId, l.1 = .removeRole roleId →
    ∀ roleId', roleId'.Same roleId → s'.aggregate.hasRole roleId' = false

/-- A role is assigned or removed in the spelling it is assigned in already. -/
def KeepsSpelling (s : Clocked) (l : AggregateCall × Moment) : Prop :=
  (∀ role, l.1 = .assignRole role → s.aggregate.SpelledAs role.roleId) ∧
    ∀ roleId, l.1 = .removeRole roleId → s.aggregate.SpelledAs roleId

section

variable {a : UserAggregate} {m : Moment}

theorem hasRole_eq_false_iff {roleId : UniqueId} :
    a.hasRole roleId = false ↔ ∀ r ∈ a.roles, r.roleId ≠ roleId := by
  rw [UserAggregate.hasRole, List.any_eq_false]
  exact forall₂_congr fun r _ => not_congr UniqueId.equals_iff

/-- Only two calls change the roles. -/
theorem roles_after_of_other {c : AggregateCall} (hassign : ∀ role, c ≠ .assignRole role)
    (hremove : ∀ roleId, c ≠ .removeRole roleId) : ((c.perform m).after a).roles = a.roles := by
  cases hu : c.userCall? with
  | some uc => rw [AggregateCall.after_of_userCall? hu]
  | none =>
    cases c with
    | suspend =>
      rw [AggregateCall.after_suspend]
      split_ifs <;> rfl
    | deactivate =>
      rw [AggregateCall.after_deactivate]
      rfl
    | assignRole role => exact absurd rfl (hassign role)
    | removeRole roleId => exact absurd rfl (hremove roleId)
    | addSession session =>
      show ((UserAggregate.addSession session).call a).2.roles = a.roles
      rw [AggregateCall.call_addSession]
      split_ifs <;> rfl
    | revokeSession sessionId =>
      show ((UserAggregate.revokeSession sessionId m).call a).2.roles = a.roles
      rw [AggregateCall.call_revokeSession]
      split
      · rfl
      · split_ifs <;> rfl
    | revokeAllSessions => rfl
    | _ => exact nomatch hu

theorem roles_after_removeRole (roleId : UniqueId) :
    (((AggregateCall.removeRole roleId).perform m).after a).roles =
      a.roles.filter fun r => !r.roleId.equals roleId := rfl

/-- **A role is assigned**: the roles stay distinct when it is not assigned in another
spelling. -/
theorem rolesDistinct_assignRole_iff (h : RolesDistinct a) (role : RoleAssignment) :
    RolesDistinct (((AggregateCall.assignRole role).perform m).after a) ↔ a.SpelledAs role.roleId := by
  rw [AggregateCall.after_assignRole]
  split_ifs with hrole
  · -- it is assigned already, so nothing else is the same role
    refine iff_of_true h fun r hr hsame => ?_
    obtain ⟨r', hr', hid⟩ := List.any_eq_true.1 hrole
    have hid' : r'.roleId = role.roleId := UniqueId.equals_iff.1 hid
    have hsame' : r.roleId.dbUuid = r'.roleId.dbUuid := by
      rw [hid']
      exact hsame
    rw [List.inj_on_of_nodup_map h hr hr' hsame', hid']
  · rw [Bool.not_eq_true, hasRole_eq_false_iff] at hrole
    unfold RolesDistinct
    rw [List.map_append, List.map_singleton, ← List.concat_eq_append, List.nodup_concat]
    constructor
    · rintro ⟨hnew, -⟩ r hr hsame
      exact absurd (List.mem_map_of_mem hr) (hsame ▸ hnew)
    · intro hspelled
      refine ⟨fun hmem => ?_, h⟩
      obtain ⟨r, hr, hsame⟩ := List.mem_map.1 hmem
      exact hrole r hr (hspelled r hr hsame)

/-- **A role is removed**: no spelling of it is left when it was assigned in this one. -/
theorem hasRole_removeRole_iff (roleId : UniqueId) :
    (∀ roleId', roleId'.Same roleId →
      (((AggregateCall.removeRole roleId).perform m).after a).hasRole roleId' = false) ↔
      a.SpelledAs roleId := by
  have hleft : ∀ roleId', (((AggregateCall.removeRole roleId).perform m).after a).hasRole roleId' =
      false ↔ ∀ r ∈ a.roles, r.roleId ≠ roleId → r.roleId ≠ roleId' := by
    intro roleId'
    rw [hasRole_eq_false_iff, roles_after_removeRole]
    simp only [List.mem_filter, and_imp, Bool.not_eq_true', ← Bool.not_eq_true, UniqueId.equals_iff,
      ne_eq]
  simp only [hleft]
  constructor
  · intro h r hr hsame
    by_contra hne
    exact h r.roleId hsame r hr hne rfl
  · rintro hspelled roleId' hsame r hr hne rfl
    exact hne (hspelled r hr hsame)

theorem rolesDistinct_removeRole (h : RolesDistinct a) (roleId : UniqueId) (m : Moment) :
    RolesDistinct (((AggregateCall.removeRole roleId).perform m).after a) := by
  unfold RolesDistinct
  rw [roles_after_removeRole]
  exact h.sublist (List.filter_sublist.map _)

/-- **One step**, from distinct roles. -/
theorem rolesUnique_step {s s' : Clocked} {l : AggregateCall × Moment}
    (h : RolesDistinct s.aggregate) (hstep : AggregateStep s l s') :
    Clocked.RolesUnique l s' ↔ KeepsSpelling s l := by
  obtain ⟨c, m⟩ := l
  obtain ⟨-, rfl⟩ := hstep
  by_cases hassign : ∃ role, c = .assignRole role
  · obtain ⟨role, rfl⟩ := hassign
    have hiff := rolesDistinct_assignRole_iff (m := m) h role
    constructor
    · intro hunique
      refine ⟨?_, nofun⟩
      rintro _ ⟨⟩
      exact hiff.1 hunique.distinct
    · exact fun hkeeps => ⟨hiff.2 (hkeeps.1 role rfl), nofun⟩
  · by_cases hremove : ∃ roleId, c = .removeRole roleId
    · obtain ⟨roleId, rfl⟩ := hremove
      have hiff := hasRole_removeRole_iff (a := s.aggregate) (m := m) roleId
      constructor
      · intro hunique
        refine ⟨nofun, ?_⟩
        rintro _ ⟨⟩
        exact hiff.1 (hunique.removed roleId rfl)
      · intro hkeeps
        refine ⟨rolesDistinct_removeRole h roleId m, ?_⟩
        rintro _ ⟨⟩
        exact hiff.2 (hkeeps.2 roleId rfl)
    · have hassign' : ∀ role, c ≠ .assignRole role := fun role heq => hassign ⟨role, heq⟩
      have hremove' : ∀ roleId, c ≠ .removeRole roleId := fun roleId heq => hremove ⟨roleId, heq⟩
      refine iff_of_true ⟨?_, fun roleId heq => absurd heq (hremove' roleId)⟩
        ⟨fun role heq => absurd heq (hassign' role), fun roleId heq => absurd heq (hremove' roleId)⟩
      unfold RolesDistinct
      rw [roles_after_of_other hassign' hremove']
      exact h

end

/-- **Roles are unique as identities**: over every run from `create`, all states have
distinct roles, and every removal leaves no spelling of its role, exactly when no
role is assigned or removed in another spelling than the one it is assigned in. -/
theorem rolesUnique_iff {email : Email} {password : Password} {firstName lastName : String}
    {id : UniqueId} {m : Moment} {a₀ : UserAggregate} {s : Clocked}
    {steps : List (Clocked × (AggregateCall × Moment) × Clocked)}
    (hcreate : UserAggregate.create email password firstName lastName id m = .ok a₀)
    (hrun : Run AggregateStep Always ⟨a₀, m.now⟩ steps s) :
    (∀ p ∈ steps, Clocked.RolesUnique p.2.1 p.2.2) ↔ ∀ p ∈ steps, KeepsSpelling p.1 p.2.1 := by
  have hstart : RolesDistinct a₀ := by
    obtain ⟨user, -, hcreated⟩ := Concurrency.bind_eq_ok.1 hcreate
    cases hcreated
    exact List.nodup_nil
  have hstep : ∀ {s : Clocked} {l : AggregateCall × Moment} {s' : Clocked},
      RolesDistinct s.aggregate → Always s l → AggregateStep s l s' →
        (Clocked.RolesUnique l s' ↔ KeepsSpelling s l) := fun h _ => rolesUnique_step h
  exact hrun.steps_iff hstart hstep fun h _ hs hkeeps => ((rolesUnique_step h hs).2 hkeeps).distinct

/-- An identifier with letters, and the same in capitals. -/
def role : UniqueId := ⟨"00000000-0000-4000-8000-00000000000f", by decide +kernel⟩

def roleInCapitals : UniqueId := ⟨"00000000-0000-4000-8000-00000000000F", by decide +kernel⟩

/-- A newcomer gets a role. -/
theorem rolesUnique_iff_newcomer :
    Clocked.RolesUnique (.assignRole ⟨ada, role, "admin", 1, none⟩, ⟨1, ada⟩)
      ⟨{ newcomer with roles := [⟨ada, role, "admin", 1, none⟩] }, 1⟩ := by
  have hstep : AggregateStep ⟨newcomer, 0⟩ (.assignRole ⟨ada, role, "admin", 1, none⟩, ⟨1, ada⟩)
      ⟨{ newcomer with roles := [⟨ada, role, "admin", 1, none⟩] }, 1⟩ := ⟨by decide, rfl⟩
  refine (rolesUnique_iff create_newcomer (.next .start trivial hstep)).2 (fun p hp => ?_) _
    (List.mem_singleton_self _)
  obtain rfl := List.mem_singleton.1 hp
  exact ⟨fun _ _ => nofun, nofun⟩

/-- **One role, twice**: assigned in small letters and in capitals. -/
theorem not_rolesUnique :
    ¬ ∀ (email : Email) (password : Password) (firstName lastName : String) (id : UniqueId)
        (m : Moment) (a₀ : UserAggregate),
        UserAggregate.create email password firstName lastName id m = .ok a₀ →
        ∀ s, Reach AggregateStep Always ⟨a₀, m.now⟩ s → RolesDistinct s.aggregate := by
  intro h
  have hdistinct := h _ _ _ _ _ _ newcomer create_newcomer _ (reach_calls _
    [.assignRole ⟨ada, role, "admin", 1, none⟩, .assignRole ⟨ada, roleInCapitals, "admin", 2, none⟩])
  exact absurd hdistinct (by decide +kernel)

end EnterpriseSystem.Identity
