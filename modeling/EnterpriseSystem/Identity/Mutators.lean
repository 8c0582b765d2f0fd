import EnterpriseSystem.Identity.Lifecycle

/-!
# What the mutators do

The eight methods that change a user, seen from outside: each of them is refused,
does nothing, or takes effect as a whole.

* `UserCall.IsEffective` — the call takes effect on this user; `UserCall.Effect`
  is what it then does, and `UserCall.effect_or_idle` says that there is nothing
  in between.
* `User.Named` — both names are trimmed, not empty and short enough.
* `allOrNothing_and_named` — every mutator is all-or-nothing, and the names of a
  user that was created stay as they should be.
-/

namespace EnterpriseSystem.Identity

open Objects Concurrency

/-! ## Names -/

/-- A name as `validateName` accepts it, without the white space around it. -/
structure IsName (name : String) : Prop where
  trimmed : trim name = name
  nonempty : name ≠ ""
  short : utf16Length name ≤ 100

theorem utf16Length_pos {s : String} (h : s ≠ "") : 0 < utf16Length s := by
  have hlist : s.toList ≠ [] := fun hnil => h (String.toList_eq_nil_iff.1 hnil)
  obtain ⟨c, cs, hcs⟩ := List.exists_cons_of_ne_nil hlist
  unfold utf16Length
  rw [hcs, List.map_cons, List.sum_cons]
  split_ifs <;> omega

theorem utf16Length_eq_zero {s : String} : utf16Length s = 0 ↔ s = "" := by
  constructor
  · intro h
    by_contra hne
    exact absurd h (utf16Length_pos hne).ne'
  · rintro rfl
    rfl

/-- **`validateName` accepts** exactly the texts whose trimmed form is a name. -/
theorem User.validateName_eq_ok {name label : String} :
    User.validateName name label = .ok () ↔ IsName (trim name) := by
  unfold User.validateName
  constructor
  · intro h
    split_ifs at h with hempty hlong
    rw [utf16Length_eq_zero, not_or] at hempty
    exact ⟨trim_trim name, hempty.2, not_lt.1 hlong⟩
  · intro h
    have hname : name ≠ "" := by
      rintro rfl
      exact h.nonempty rfl
    rw [if_neg (by rw [utf16Length_eq_zero, not_or]; exact ⟨hname, h.nonempty⟩),
      if_neg (not_lt.2 h.short)]

/-- Both names of the user are names. -/
structure User.Named (u : User) : Prop where
  firstName : IsName u.firstName
  lastName : IsName u.lastName

/-! ## Taking effect -/

/-- The call takes effect on this user: it is neither refused nor a no-op. -/
def UserCall.IsEffective (u : User) : UserCall → Prop
  | .activate => u.status = .inactive ∨ u.status = .pendingVerification
  | .suspend => u.status ≠ .suspended
  | .deactivate => u.status ≠ .inactive
  | .verifyEmail => u.emailVerified = false
  | .recordLogin => u.status = .active
  | .changeEmail newEmail => u.email ≠ newEmail
  | .changePassword _ => True
  | .updateProfile firstName lastName =>
    User.validateName firstName "First name" = .ok () ∧
      User.validateName lastName "Last name" = .ok ()
  | .pullDomainEvents => False

instance (u : User) : DecidablePred (UserCall.IsEffective u) := by
  intro c
  cases c <;> unfold UserCall.IsEffective <;> infer_instance

/-- How a call that takes effect treats the status and the collected events. -/
inductive UserCall.StatusMove (c : UserCall) (m : Moment) (u u' : User) : Prop where
  | stays : u'.status = u.status → u'.domainEvents = u.domainEvents → StatusMove c m u u'
  | announced : u'.status ≠ u.status →
      u'.domainEvents = u.domainEvents ++ [u.statusChanged u.status u'.status m] →
      StatusMove c m u u'
  | silent (newEmail : Email) : c = .changeEmail newEmail → u'.status = .pendingVerification →
      u'.domainEvents = u.domainEvents → StatusMove c m u u'

/-- What a call does that takes effect. -/
structure UserCall.Effect (c : UserCall) (m : Moment) (u u' : User) : Prop where
  version : u'.version = u.version + 1
  move : c.StatusMove m u u'

namespace UserCall

variable {c : UserCall} {m : Moment} {u : User}

/-- A call announces the status it moves the user to. -/
theorem Effect.of_moved {newStatus : UserStatus} (h : newStatus ≠ u.status) :
    c.Effect m u (u.moved newStatus m) := ⟨rfl, .announced h rfl⟩

/-- **There is nothing in between**: a mutator that takes effect returns and does
all it is for, and any other leaves the user as it was. -/
theorem effect_or_idle (c : UserCall) (hpull : c ≠ .pullDomainEvents) (m : Moment) (u : User) :
    (c.IsEffective u ∧ (c.perform m).Succeeds u ∧ c.Effect m u ((c.perform m).after u)) ∨
      (¬ c.IsEffective u ∧ (c.perform m).after u = u) := by
  unfold Method.Succeeds Method.after
  cases c with
  | activate =>
    show (_ ∧ (∃ a, ((User.activate m).call u).1 = .ok a) ∧ Effect _ m u ((User.activate m).call u).2) ∨
      (_ ∧ ((User.activate m).call u).2 = u)
    rw [User.call_activate]
    split_ifs with hsuspended hactive
    · exact Or.inr ⟨by simp [IsEffective, hsuspended], rfl⟩
    · exact Or.inr ⟨by simp [IsEffective, hactive], rfl⟩
    · refine Or.inl ⟨?_, ⟨(), rfl⟩, .of_moved (Ne.symm hactive)⟩
      show u.status = .inactive ∨ u.status = .pendingVerification
      cases hstatus : u.status <;> simp_all
  | suspend =>
    show (_ ∧ (∃ a, ((User.suspend m).call u).1 = .ok a) ∧ Effect _ m u ((User.suspend m).call u).2) ∨
      (_ ∧ ((User.suspend m).call u).2 = u)
    rw [User.call_suspend]
    split_ifs with hsuspended
    · exact Or.inr ⟨not_not.2 hsuspended, rfl⟩
    · exact Or.inl ⟨hsuspended, ⟨(), rfl⟩, .of_moved (Ne.symm hsuspended)⟩
  | deactivate =>
    show (_ ∧ (∃ a, ((User.deactivate m).call u).1 = .ok a) ∧
      Effect _ m u ((User.deactivate m).call u).2) ∨ (_ ∧ ((User.deactivate m).call u).2 = u)
    rw [User.call_deactivate]
    split_ifs with hinactive
    · exact Or.inr ⟨not_not.2 hinactive, rfl⟩
    · exact Or.inl ⟨hinactive, ⟨(), rfl⟩, .of_moved (Ne.symm hinactive)⟩
  | verifyEmail =>
    show (_ ∧ (∃ a, ((User.verifyEmail m).call u).1 = .ok a) ∧
      Effect _ m u ((User.verifyEmail m).call u).2) ∨ (_ ∧ ((User.verifyEmail m).call u).2 = u)
    rw [User.call_verifyEmail]
    split_ifs with hverified hpending
    · exact Or.inr ⟨by simp [IsEffective, hverified], rfl⟩
    · have hmoves : UserStatus.active ≠ u.status := by
        rw [hpending]
        exact nofun
      exact Or.inl ⟨Bool.eq_false_iff.2 hverified, ⟨(), rfl⟩, ⟨rfl, .announced hmoves rfl⟩⟩
    · exact Or.inl ⟨Bool.eq_false_iff.2 hverified, ⟨(), rfl⟩, ⟨rfl, .stays rfl rfl⟩⟩
  | recordLogin =>
    show (_ ∧ (∃ a, ((User.recordLogin m).call u).1 = .ok a) ∧
      Effect _ m u ((User.recordLogin m).call u).2) ∨ (_ ∧ ((User.recordLogin m).call u).2 = u)
    rw [User.call_recordLogin]
    split_ifs with hactive
    · exact Or.inl ⟨hactive, ⟨(), rfl⟩, ⟨rfl, .stays rfl rfl⟩⟩
    · exact Or.inr ⟨hactive, rfl⟩
  | changeEmail newEmail =>
    show (_ ∧ (∃ a, ((User.changeEmail newEmail m).call u).1 = .ok a) ∧
      Effect _ m u ((User.changeEmail newEmail m).call u).2) ∨
        (_ ∧ ((User.changeEmail newEmail m).call u).2 = u)
    rw [User.call_changeEmail]
    split_ifs with hsame
    · exact Or.inr ⟨not_not.2 hsame, rfl⟩
    · exact Or.inl ⟨hsame, ⟨(), rfl⟩, ⟨rfl, .silent newEmail rfl rfl rfl⟩⟩
  | changePassword newPassword =>
    exact Or.inl ⟨trivial, ⟨(), rfl⟩, ⟨rfl, .stays rfl rfl⟩⟩
  | updateProfile firstName lastName =>
    show (_ ∧ (∃ a, ((User.updateProfile firstName lastName m).call u).1 = .ok a) ∧
      Effect _ m u ((User.updateProfile firstName lastName m).call u).2) ∨
        (_ ∧ ((User.updateProfile firstName lastName m).call u).2 = u)
    rw [User.call_updateProfile]
    split
    · rename_i hfirst hlast
      exact Or.inl ⟨⟨hfirst, hlast⟩, ⟨(), rfl⟩, ⟨rfl, .stays rfl rfl⟩⟩
    · rename_i e hfirst
      exact Or.inr ⟨fun h => (nomatch hfirst.symm.trans h.1), rfl⟩
    · rename_i e hlast
      exact Or.inr ⟨fun h => (nomatch hlast.symm.trans h.2), rfl⟩
  | pullDomainEvents => exact absurd rfl hpull

/-- A call that takes effect counts once. -/
theorem version_of_isEffective (h : c.IsEffective u) :
    ((c.perform m).after u).version = u.version + 1 := by
  have hpull : c ≠ .pullDomainEvents := by
    rintro rfl
    exact h
  rcases c.effect_or_idle hpull m u with ⟨-, -, heffect⟩ | ⟨hnot, -⟩
  · exact heffect.version
  · exact absurd h hnot

/-- A call that does not take effect changes nothing but the collected events. -/
theorem after_of_not_isEffective (h : ¬ c.IsEffective u) :
    (c.perform m).after u = { u with domainEvents := ((c.perform m).after u).domainEvents } := by
  by_cases hpull : c = .pullDomainEvents
  · subst hpull
    rfl
  · rcases c.effect_or_idle hpull m u with ⟨heffective, -⟩ | ⟨-, hsame⟩
    · exact absurd heffective h
    · rw [hsame]

/-- **A method raises the version at most once.** -/
theorem version_after_le (c : UserCall) (m : Moment) (u : User) :
    ((c.perform m).after u).version ≤ u.version + 1 := by
  by_cases h : c.IsEffective u
  · exact (version_of_isEffective h).le
  · rw [after_of_not_isEffective h]
    exact (lt_add_one u.version).le

/-- Names stay names. -/
theorem named_after (c : UserCall) (m : Moment) (h : u.Named) : ((c.perform m).after u).Named := by
  by_cases heffective : c.IsEffective u
  · rcases (c.frame m u).names with ⟨hfirst, hlast⟩ | ⟨firstName, lastName, rfl, hfirst, hlast⟩
    · exact ⟨hfirst ▸ h.firstName, hlast ▸ h.lastName⟩
    · refine ⟨?_, ?_⟩
      · rw [hfirst]
        exact User.validateName_eq_ok.1 heffective.1
      · rw [hlast]
        exact User.validateName_eq_ok.1 heffective.2
  · rw [after_of_not_isEffective heffective]
    exact ⟨h.firstName, h.lastName⟩

end UserCall

theorem User.version_afterCalls_le (u : User) (calls : List (UserCall × Moment)) :
    (u.afterCalls calls).version ≤ u.version + calls.length := by
  induction calls generalizing u with
  | nil => simp [User.afterCalls]
  | cons p calls ih =>
    have hfirst := p.1.version_after_le p.2 u
    have hrest : ((((p.1.perform p.2).after u).afterCalls calls).version ≤ _) := ih _
    show (((p.1.perform p.2).after u).afterCalls calls).version ≤ _
    push_cast [List.length_cons]
    omega

/-! ## All or nothing -/

/-- The call throws and leaves the user as it was, or does nothing, or counts
once and collects at most one event. -/
inductive UserCall.AllOrNothing (c : UserCall) (m : Moment) (u : User) : Prop where
  | refused (e : Thrown) : (c.perform m).Throws u e → (c.perform m).after u = u →
      c.AllOrNothing m u
  | idle : (c.perform m).Succeeds u → (c.perform m).after u = u → c.AllOrNothing m u
  | counted (events : List DomainEvent) : (c.perform m).Succeeds u →
      ((c.perform m).after u).version = u.version + 1 →
      ((c.perform m).after u).domainEvents = u.domainEvents ++ events → events.length ≤ 1 →
      c.AllOrNothing m u

theorem UserCall.allOrNothing (c : UserCall) (hpull : c ≠ .pullDomainEvents) (m : Moment) (u : User) :
    c.AllOrNothing m u := by
  rcases c.effect_or_idle hpull m u with ⟨-, hok, heffect⟩ | ⟨-, hsame⟩
  · rcases heffect.move with ⟨-, hevents⟩ | ⟨-, hevents⟩ | ⟨-, -, -, hevents⟩
    · exact .counted [] hok heffect.version (by rw [hevents, List.append_nil]) (Nat.zero_le 1)
    · exact .counted _ hok heffect.version hevents le_rfl
    · exact .counted [] hok heffect.version (by rw [hevents, List.append_nil]) (Nat.zero_le 1)
  · cases hanswer : ((c.perform m).call u).1 with
    | error e => exact .refused e hanswer hsame
    | ok a => exact .idle ⟨a, hanswer⟩ hsame

/-- A user that is created has names. -/
theorem User.named_create {email : Email} {password : Password} {firstName lastName : String}
    {id : UniqueId} {m : Moment} {u : User}
    (h : User.create email password firstName lastName id m = .ok u) : u.Named := by
  obtain ⟨_, hfirst, hrest⟩ := bind_eq_ok.1 h
  obtain ⟨_, hlast, hcreated⟩ := bind_eq_ok.1 hrest
  cases hcreated
  exact ⟨User.validateName_eq_ok.1 hfirst, User.validateName_eq_ok.1 hlast⟩

theorem User.Named.afterCalls {u : User} (h : u.Named) (calls : List (UserCall × Moment)) :
    (u.afterCalls calls).Named := by
  induction calls generalizing u with
  | nil => exact h
  | cons p calls ih => exact ih (p.1.named_after p.2 h)

/-- **Every mutator is all-or-nothing**, on every user and with any arguments; and
the names of a user that was created stay trimmed, not empty and short, whatever
is called on it. -/
theorem allOrNothing_and_named :
    (∀ (c : UserCall) (m : Moment) (u : User), c ≠ .pullDomainEvents → c.AllOrNothing m u) ∧
      ∀ (email : Email) (password : Password) (firstName lastName : String) (id : UniqueId)
        (m : Moment) (u : User), User.create email password firstName lastName id m = .ok u →
        ∀ calls, (u.afterCalls calls).Named :=
  ⟨fun c m u hpull => c.allOrNothing hpull m u,
    fun _ _ _ _ _ _ _ hcreate calls => (User.named_create hcreate).afterCalls calls⟩

/-- The newcomer is suspended, and renamed afterwards. -/
theorem allOrNothing_and_named_newcomer :
    UserCall.suspend.AllOrNothing ⟨1, ada⟩ newcomer.user ∧
      (newcomer.user.afterCalls
        [(.suspend, ⟨1, ada⟩), (.updateProfile " Ada " "King", ⟨2, ada⟩)]).Named :=
  ⟨allOrNothing_and_named.1 _ _ _ nofun,
    allOrNothing_and_named.2 ⟨"ada@example.com"⟩ ⟨"", some "$2a$12$ada"⟩ "Ada" "Byron" ada ⟨0, ada⟩
      newcomer.user rfl _⟩

end EnterpriseSystem.Identity
