import EnterpriseSystem.Identity.Mutators

/-!
# The version of the aggregate

Which calls on an aggregate its version tells of.

* `UserAggregate.SameContent` — two aggregates agree in everything but the version.
* `VersionCovers` — a call that changes the content raises the version.
* `AggregateCall.Uncounted` — the calls on the roles, the sessions and the
  collected events, where they change something; `versionCovers_iff` says that
  these are exactly the ones the version misses.
-/

namespace EnterpriseSystem.Identity

open Objects

/-- `version`: the one of the user. -/
def UserAggregate.version (a : UserAggregate) : ℤ := a.user.version

/-- Everything but the version is the same. -/
def UserAggregate.SameContent (a a' : UserAggregate) : Prop :=
  { a.user with version := a'.user.version } = a'.user ∧ a.roles = a'.roles ∧
    a.sessions = a'.sessions

/-- The version tells of what the call does. -/
def VersionCovers (c : AggregateCall) (m : Moment) (a : UserAggregate) : Prop :=
  (¬ a.SameContent ((c.perform m).after a) → a.version < ((c.perform m).after a).version) ∧
    (((c.perform m).after a).version = a.version → a.SameContent ((c.perform m).after a))

/-- Some session has not been revoked. -/
def UserAggregate.HasUnrevoked (a : UserAggregate) : Prop := ∃ s ∈ a.sessions, s.revokedAt = none

instance (a : UserAggregate) : Decidable a.HasUnrevoked :=
  inferInstanceAs (Decidable (∃ s ∈ a.sessions, s.revokedAt = none))

/-- The calls that change the content and not the version. -/
def AggregateCall.Uncounted (a : UserAggregate) : AggregateCall → Prop
  | .assignRole role => a.hasRole role.roleId = false
  | .removeRole roleId => a.hasRole roleId = true
  | .addSession _ => a.user.isActive = true ∧ a.user.emailVerified = true
  | .revokeSession sessionId =>
    ∃ s, a.sessions[a.sessions.findIdx fun s => s.id.equals sessionId]? = some s ∧
      s.revokedAt = none
  | .revokeAllSessions => a.HasUnrevoked
  | .deactivate => a.user.status = .inactive ∧ a.HasUnrevoked
  | .pullDomainEvents => a.user.domainEvents ≠ []
  | _ => False

section

variable {c : AggregateCall} {m : Moment} {a : UserAggregate}

theorem UserAggregate.SameContent.refl (a : UserAggregate) : a.SameContent a := ⟨rfl, rfl, rfl⟩

/-- A call that does nothing, or raises the version, is covered. -/
theorem versionCovers_of (h : (c.perform m).after a = a ∨ a.version < ((c.perform m).after a).version) :
    VersionCovers c m a := by
  rcases h with hsame | hlt
  · unfold VersionCovers
    rw [hsame]
    exact ⟨fun hnot => absurd (.refl a) hnot, fun _ => .refl a⟩
  · exact ⟨fun _ => hlt, fun hsame => absurd hsame hlt.ne'⟩

/-- A call that leaves the version is covered when it changes nothing else. -/
theorem versionCovers_iff_of_version (h : ((c.perform m).after a).version = a.version) :
    VersionCovers c m a ↔ a.SameContent ((c.perform m).after a) := by
  constructor
  · exact fun hcovers => hcovers.2 h
  · exact fun hsame => ⟨fun hnot => absurd hsame hnot, fun _ => hsame⟩

/-- The calls that go to the user are counted, except for `pullDomainEvents`. -/
theorem versionCovers_of_userCall? (uc : UserCall) (h : c.userCall? = some uc)
    (hpull : uc ≠ .pullDomainEvents) : VersionCovers c m a := by
  refine versionCovers_of ?_
  rw [AggregateCall.after_of_userCall? h]
  rcases uc.effect_or_idle hpull m a.user with ⟨-, -, heffect⟩ | ⟨-, hsame⟩
  · right
    show a.user.version < ((uc.perform m).after a.user).version
    rw [heffect.version]
    exact lt_add_one _
  · left
    rw [hsame]

theorem revokeAllSessions_same (m : Moment) :
    a.SameContent ((UserAggregate.revokeAllSessions m).after a) ↔ ¬ a.HasUnrevoked := by
  have hmap : a.sessions = a.sessions.map (fun s => if s.revokedAt = none then
      { s with revokedAt := some m.now } else s) ↔ ¬ a.HasUnrevoked := by
    unfold UserAggregate.HasUnrevoked
    push Not
    rw [eq_comm, ← List.map_id a.sessions, List.map_map, List.map_eq_map_iff, List.map_id]
    refine forall₂_congr fun s _ => ?_
    by_cases hs : s.revokedAt = none
    · refine iff_of_false (fun heq => ?_) (not_not.2 hs)
      have hrevoked := congrArg SessionInfo.revokedAt heq
      simp [hs] at hrevoked
    · exact iff_of_true (by simp [hs]) hs
  constructor
  · exact fun hsame => hmap.1 hsame.2.2
  · exact fun hnone => ⟨rfl, rfl, hmap.2 hnone⟩

theorem assignRole_covers (role : RoleAssignment) :
    VersionCovers (.assignRole role) m a ↔ a.hasRole role.roleId ≠ false := by
  rw [versionCovers_iff_of_version (congrArg User.version
    (AggregateCall.user_after (c := .assignRole role) rfl nofun nofun))]
  rw [AggregateCall.after_assignRole]
  split_ifs with hrole
  · exact iff_of_true (.refl a) (by simp [hrole])
  · refine iff_of_false (fun hsame => ?_) (by simp [hrole])
    have hlonger := congrArg List.length hsame.2.1
    simp at hlonger

theorem removeRole_covers (roleId : UniqueId) :
    VersionCovers (.removeRole roleId) m a ↔ a.hasRole roleId ≠ true := by
  rw [versionCovers_iff_of_version rfl]
  constructor
  · intro hsame hrole
    have hroles : a.roles = a.roles.filter fun r => !r.roleId.equals roleId := hsame.2.1
    obtain ⟨r, hr, hid⟩ := List.any_eq_true.1 hrole
    rw [hroles] at hr
    simp [hid] at hr
  · intro hnone
    refine ⟨rfl, ?_, rfl⟩
    show a.roles = a.roles.filter fun r => !r.roleId.equals roleId
    refine (List.filter_eq_self.2 fun r hr => ?_).symm
    simp only [UserAggregate.hasRole, ne_eq, Bool.not_eq_true, List.any_eq_false] at hnone
    simpa using hnone r hr

theorem addSession_covers (session : SessionInfo) :
    VersionCovers (.addSession session) m a ↔
      ¬ (a.user.isActive = true ∧ a.user.emailVerified = true) := by
  rw [versionCovers_iff_of_version (congrArg User.version
    (AggregateCall.user_after (c := .addSession session) rfl nofun nofun))]
  show a.SameContent ((UserAggregate.addSession session).call a).2 ↔ _
  rw [AggregateCall.call_addSession]
  split_ifs with hactive hverified
  · exact iff_of_true (.refl a) (by simp [hactive])
  · exact iff_of_true (.refl a) (by simp [hverified])
  · refine iff_of_false (fun hsame => ?_) (by simp_all)
    have hlonger := congrArg List.length hsame.2.2
    simp at hlonger

theorem revokeSession_covers (sessionId : UniqueId) :
    VersionCovers (.revokeSession sessionId) m a ↔
      ¬ AggregateCall.Uncounted a (.revokeSession sessionId) := by
  rw [versionCovers_iff_of_version (congrArg User.version
    (AggregateCall.user_after (c := .revokeSession sessionId) rfl nofun nofun))]
  show a.SameContent ((UserAggregate.revokeSession sessionId m).call a).2 ↔ _
  simp only [AggregateCall.call_revokeSession, AggregateCall.Uncounted]
  generalize a.sessions.findIdx (fun s => s.id.equals sessionId) = i
  cases hs : a.sessions[i]? with
  | none => exact iff_of_true (.refl a) nofun
  | some session =>
    dsimp only
    split_ifs with hrevoked
    · refine iff_of_false (fun hsame => ?_) (not_not.2 ⟨session, rfl, hrevoked⟩)
      obtain ⟨hlt, -⟩ := List.getElem?_eq_some_iff.1 hs
      have hsessions : a.sessions = a.sessions.set i { session with revokedAt := some m.now } :=
        hsame.2.2
      rw [hsessions, List.getElem?_set_self hlt] at hs
      rw [← Option.some.inj hs] at hrevoked
      exact nomatch hrevoked
    · refine iff_of_true (.refl a) ?_
      rintro ⟨_, ⟨⟩, hnone⟩
      exact hrevoked hnone

theorem deactivate_covers :
    VersionCovers .deactivate m a ↔ ¬ (a.user.status = .inactive ∧ a.HasUnrevoked) := by
  have hafter := AggregateCall.after_deactivate (a := a) (m := m)
  by_cases hinactive : a.user.status = .inactive
  · have huser : (UserCall.deactivate.perform m).after a.user = a.user := by
      show ((User.deactivate m).call a.user).2 = a.user
      rw [User.call_deactivate, if_pos hinactive]
    rw [huser] at hafter
    have hversion : ((AggregateCall.deactivate.perform m).after a).version = a.version := by
      rw [hafter]
      rfl
    rw [versionCovers_iff_of_version hversion, hafter]
    exact (revokeAllSessions_same m).trans (by simp [hinactive])
  · refine iff_of_true (versionCovers_of (Or.inr ?_)) fun h => hinactive h.1
    rw [hafter]
    show a.user.version < ((User.deactivate m).call a.user).2.version
    rw [User.call_deactivate, if_neg hinactive]
    exact lt_add_one _

theorem suspend_covers : VersionCovers .suspend m a := by
  refine versionCovers_of ?_
  rw [AggregateCall.after_suspend]
  split_ifs
  · exact Or.inl rfl
  · exact Or.inr (lt_add_one a.user.version)

theorem pullDomainEvents_covers :
    VersionCovers .pullDomainEvents m a ↔ ¬ a.user.domainEvents ≠ [] := by
  rw [versionCovers_iff_of_version rfl, not_not]
  constructor
  · intro hsame
    exact congrArg User.domainEvents hsame.1
  · intro hnone
    refine ⟨?_, rfl, rfl⟩
    show a.user = { a.user with domainEvents := [] }
    rw [← hnone]

/-- **The version covers a call** exactly when the call does not change the
roles, the sessions or the collected events alone. -/
theorem versionCovers_iff (c : AggregateCall) (m : Moment) (a : UserAggregate) :
    VersionCovers c m a ↔ ¬ c.Uncounted a := by
  cases c with
  | assignRole role => exact assignRole_covers role
  | removeRole roleId => exact removeRole_covers roleId
  | addSession session => exact addSession_covers session
  | revokeSession sessionId => exact revokeSession_covers sessionId
  | revokeAllSessions =>
    rw [versionCovers_iff_of_version rfl]
    exact revokeAllSessions_same m
  | deactivate => exact deactivate_covers
  | pullDomainEvents => exact pullDomainEvents_covers
  | suspend => exact iff_of_true suspend_covers id
  | activate => exact iff_of_true (versionCovers_of_userCall? .activate rfl nofun) id
  | verifyEmail => exact iff_of_true (versionCovers_of_userCall? .verifyEmail rfl nofun) id
  | recordLogin => exact iff_of_true (versionCovers_of_userCall? .recordLogin rfl nofun) id
  | changeEmail newEmail =>
    exact iff_of_true (versionCovers_of_userCall? (.changeEmail newEmail) rfl nofun) id
  | changePassword newPassword =>
    exact iff_of_true (versionCovers_of_userCall? (.changePassword newPassword) rfl nofun) id
  | updateProfile firstName lastName =>
    exact iff_of_true
      (versionCovers_of_userCall? (.updateProfile firstName lastName) rfl nofun) id

/-- A role is assigned and the version stays. -/
theorem not_versionCovers :
    ¬ ∀ (c : AggregateCall) (m : Moment) (a : UserAggregate), VersionCovers c m a := by
  intro h
  have hcovers := h (.assignRole ⟨ada, ada, "admin", 0, none⟩) ⟨1, ada⟩ newcomer
  have hsame := hcovers.2 rfl
  exact nomatch hsame.2.1

end

end EnterpriseSystem.Identity
