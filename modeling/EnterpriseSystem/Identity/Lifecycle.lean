import EnterpriseSystem.Base.Program
import EnterpriseSystem.Identity.UserAggregate

/-!
# The lifecycle of a user

What the status, the verification of the address and the sessions do over any
sequence of calls on an aggregate.

* `AggregateCall.userCall?` — the calls that only delegate to the user, so that
  the facts about the user's own methods carry over.
* `AggregateCall.LeavesSuspension` — the two calls that take a user out of
  `SUSPENDED`, and `suspension_holds`: without them a suspended user stays
  suspended, cannot log in and gets no session; each of them opens the way to
  `ACTIVE`.
* `SessionsGuarded` — only a user who can log in has an active session — and
  `sessionsGuarded_iff`: it lasts exactly as long as no change of the address
  meets an active session.
-/

namespace EnterpriseSystem.Identity

open Objects Relational Concurrency

/-! ## The user's own calls -/

namespace UserCall

variable {c : UserCall} {u : User}

/-- **A suspended user** stays suspended, unless it is deactivated or moves to
another address. -/
theorem suspended_after (m : Moment) (h : u.status = .suspended) (hdeactivate : c ≠ .deactivate)
    (hemail : ∀ newEmail, c = .changeEmail newEmail → u.email = newEmail) :
    ((c.perform m).after u).status = .suspended := by
  unfold Method.after
  cases c with
  | activate =>
    show ((User.activate m).call u).2.status = _
    rw [User.call_activate, if_pos h]
    exact h
  | suspend =>
    show ((User.suspend m).call u).2.status = _
    rw [User.call_suspend, if_pos h]
    exact h
  | deactivate => exact absurd rfl hdeactivate
  | verifyEmail =>
    show ((User.verifyEmail m).call u).2.status = _
    rw [User.call_verifyEmail, if_neg (c := u.status = _) (by rw [h]; exact nofun)]
    split_ifs <;> exact h
  | recordLogin =>
    show ((User.recordLogin m).call u).2.status = _
    rw [User.call_recordLogin]
    split_ifs <;> exact h
  | changeEmail newEmail =>
    show ((User.changeEmail newEmail m).call u).2.status = _
    rw [User.call_changeEmail, if_pos (hemail newEmail rfl)]
    exact h
  | changePassword newPassword => exact h
  | updateProfile firstName lastName =>
    show ((User.updateProfile firstName lastName m).call u).2.status = _
    rw [User.call_updateProfile]
    split <;> exact h
  | pullDomainEvents => exact h

/-- **A user who can log in** still can, unless it is suspended, deactivated or
moves to another address. -/
theorem canLogin_after (m : Moment) (h : u.canLogin = true) (hsuspend : c ≠ .suspend)
    (hdeactivate : c ≠ .deactivate)
    (hemail : ∀ newEmail, c = .changeEmail newEmail → u.email = newEmail) :
    ((c.perform m).after u).canLogin = true := by
  unfold Method.after
  have hactive : u.status = .active := by
    simp only [User.canLogin, User.isActive, Bool.and_eq_true, decide_eq_true_eq] at h
    exact h.1
  have hverified : u.emailVerified = true := by
    simp only [User.canLogin, Bool.and_eq_true] at h
    exact h.2
  cases c with
  | activate =>
    show ((User.activate m).call u).2.canLogin = true
    rw [User.call_activate, if_neg (by rw [hactive]; exact nofun), if_pos hactive]
    exact h
  | suspend => exact absurd rfl hsuspend
  | deactivate => exact absurd rfl hdeactivate
  | verifyEmail =>
    show ((User.verifyEmail m).call u).2.canLogin = true
    rw [User.call_verifyEmail, if_pos hverified]
    exact h
  | recordLogin =>
    show ((User.recordLogin m).call u).2.canLogin = true
    rw [User.call_recordLogin, if_pos hactive]
    exact h
  | changeEmail newEmail =>
    show ((User.changeEmail newEmail m).call u).2.canLogin = true
    rw [User.call_changeEmail, if_pos (hemail newEmail rfl)]
    exact h
  | changePassword newPassword => exact h
  | updateProfile firstName lastName =>
    show ((User.updateProfile firstName lastName m).call u).2.canLogin = true
    rw [User.call_updateProfile]
    split <;> exact h
  | pullDomainEvents => exact h

end UserCall

/-! ## Delegation -/

namespace AggregateCall

/-- The calls that do what the user's method of the name does, and nothing else. -/
def userCall? : AggregateCall → Option UserCall
  | activate => some .activate
  | verifyEmail => some .verifyEmail
  | recordLogin => some .recordLogin
  | changeEmail newEmail => some (.changeEmail newEmail)
  | changePassword newPassword => some (.changePassword newPassword)
  | updateProfile firstName lastName => some (.updateProfile firstName lastName)
  | pullDomainEvents => some .pullDomainEvents
  | _ => none

theorem after_of_userCall? {c : AggregateCall} {uc : UserCall} (h : c.userCall? = some uc)
    (m : Moment) (a : UserAggregate) :
    (c.perform m).after a = { a with user := (uc.perform m).after a.user } := by
  cases c <;> cases h <;> rfl

variable {a : UserAggregate} {m : Moment}

theorem after_suspend :
    (AggregateCall.suspend.perform m).after a =
      if a.user.status = .suspended then a
      else (UserAggregate.revokeAllSessions m).after { a with user := a.user.moved .suspended m } := by
  show ((UserAggregate.suspend m).call a).2 = _
  simp only [UserAggregate.suspend, UserAggregate.onUser, Method.call_bind, Method.call_onPart,
    User.call_suspend]
  split_ifs <;> rfl

theorem after_deactivate :
    (AggregateCall.deactivate.perform m).after a =
      (UserAggregate.revokeAllSessions m).after
        { a with user := (UserCall.deactivate.perform m).after a.user } := by
  show ((UserAggregate.deactivate m).call a).2 = _
  simp only [UserAggregate.deactivate, UserAggregate.onUser, Method.call_bind, Method.call_onPart,
    User.call_deactivate, Method.after, UserCall.perform]
  split_ifs <;> rfl

theorem call_addSession (session : SessionInfo) :
    (UserAggregate.addSession session).call a =
      if a.user.isActive = false then
        (.error (.error "Cannot add a session for a non-active user."), a)
      else if a.user.emailVerified = false then
        (.error (.error "Cannot add a session for a user with unverified email."), a)
      else (.ok (), { a with sessions := a.sessions ++ [session] }) := by
  simp only [UserAggregate.addSession, Method.call_bind, Method.call_get, Method.call_ite]
  rfl

theorem after_assignRole (role : RoleAssignment) :
    ((AggregateCall.assignRole role).perform m).after a =
      if a.hasRole role.roleId = true then a else { a with roles := a.roles ++ [role] } := by
  show ((UserAggregate.assignRole role).call a).2 = _
  simp only [UserAggregate.assignRole, Method.call_bind, Method.call_get, Method.call_ite]
  by_cases hrole : a.hasRole role.roleId = true
  · rw [if_pos hrole]
    exact congrArg Prod.snd (if_pos hrole)
  · rw [if_neg hrole]
    exact congrArg Prod.snd (if_neg hrole)

/-- The first session of the identifier is revoked in its place, if it was not. -/
theorem call_revokeSession (sessionId : UniqueId) :
    let i := a.sessions.findIdx fun s => s.id.equals sessionId
    (UserAggregate.revokeSession sessionId m).call a =
      match a.sessions[i]? with
      | none => (.error (.error "Session not found."), a)
      | some session =>
        if session.revokedAt = none then
          (.ok (), { a with
            sessions := a.sessions.set i { session with revokedAt := some m.now } })
        else (.error (.error "Session is already revoked."), a) := by
  intro i
  simp only [UserAggregate.revokeSession, Method.call_bind, Method.call_get]
  cases hsession : a.sessions[i]? with
  | none => rfl
  | some session =>
    have hlt : i < a.sessions.length := (List.getElem?_eq_some_iff.1 hsession).1
    simp only [Method.call_ite, ne_eq, ite_not, List.set_eq_take_append_cons_drop, if_pos hlt,
      List.append_assoc]
    rfl

/-- The calls that do not go to the user leave it alone. -/
theorem user_after {c : AggregateCall} (h : c.userCall? = none) (hsuspend : c ≠ .suspend)
    (hdeactivate : c ≠ .deactivate) : ((c.perform m).after a).user = a.user := by
  cases c with
  | suspend => exact absurd rfl hsuspend
  | deactivate => exact absurd rfl hdeactivate
  | assignRole role =>
    rw [after_assignRole]
    split_ifs <;> rfl
  | removeRole roleId => rfl
  | addSession session =>
    show ((UserAggregate.addSession session).call a).2.user = a.user
    rw [call_addSession]
    split_ifs <;> rfl
  | revokeSession sessionId =>
    show ((UserAggregate.revokeSession sessionId m).call a).2.user = a.user
    rw [call_revokeSession]
    split
    · rfl
    · split_ifs <;> rfl
  | revokeAllSessions => rfl
  | _ => exact nomatch h

end AggregateCall

/-! ## Suspension -/

/-- The calls that take a suspended user out of its suspension. -/
def AggregateCall.LeavesSuspension (a : UserAggregate) : AggregateCall → Prop
  | .deactivate => True
  | .changeEmail newEmail => a.user.email ≠ newEmail
  | _ => False

section

variable {a : UserAggregate} {c : AggregateCall}

theorem AggregateCall.suspended_after (m : Moment) (h : a.user.status = .suspended)
    (hstay : ¬ c.LeavesSuspension a) : ((c.perform m).after a).user.status = .suspended := by
  cases hu : c.userCall? with
  | some uc =>
    rw [after_of_userCall? hu]
    refine UserCall.suspended_after m h ?_ fun newEmail heq => ?_
    · rintro rfl
      cases c <;> exact nomatch hu
    · subst heq
      cases c <;> cases hu
      exact not_not.1 hstay
  | none =>
    by_cases hsuspend : c = .suspend
    · subst hsuspend
      rw [after_suspend, if_pos h]
      exact h
    · by_cases hdeactivate : c = .deactivate
      · subst hdeactivate
        exact absurd trivial hstay
      · rw [user_after hu hsuspend hdeactivate]
        exact h

/-- Nothing a suspended user is refused is granted to it. -/
theorem recordLogin_addSession_of_suspended (h : a.user.status = .suspended) (m : Moment)
    (session : SessionInfo) :
    ¬ (UserAggregate.recordLogin m).Succeeds a ∧
      ¬ (UserAggregate.addSession session).Succeeds a := by
  have hnot : a.user.status ≠ .active := by
    rw [h]
    exact nofun
  refine ⟨Method.Throws.not_succeeds (e := User.loginRefused a.user.status) ?_,
    Method.Throws.not_succeeds (e := .error "Cannot add a session for a non-active user.") ?_⟩
  · show ((User.recordLogin m).call a.user).1 = _
    rw [User.call_recordLogin, if_neg hnot]
  · show ((UserAggregate.addSession session).call a).1 = _
    rw [AggregateCall.call_addSession, if_pos (by simpa [User.isActive] using hnot)]

/-- Out of its suspension, a user can be activated. -/
theorem active_of_leavesSuspension (h : a.user.status = .suspended) (hleaves : c.LeavesSuspension a)
    (m m' : Moment) :
    ((UserAggregate.activate m').after ((c.perform m).after a)).user.status = .active := by
  cases c with
  | deactivate =>
    rw [AggregateCall.after_deactivate]
    show ((User.activate m').call ((User.deactivate m).call a.user).2).2.status = _
    rw [User.call_deactivate, if_neg (by rw [h]; exact nofun), User.call_activate]
    rfl
  | changeEmail newEmail =>
    rw [AggregateCall.after_of_userCall? rfl]
    show ((User.activate m').call ((User.changeEmail newEmail m).call a.user).2).2.status = _
    rw [User.call_changeEmail, if_neg hleaves, User.call_activate]
    rfl
  | _ => exact absurd hleaves id

end

/-- **Suspension holds** over every run that neither deactivates the user nor
moves it to another address: it stays suspended, its login is not recorded and
no session is added.  Either of the two calls makes the next `activate` go
through. -/
theorem suspension_holds (s₀ : Clocked) (hsuspended : s₀.aggregate.user.status = .suspended) :
    (∀ s, Reach AggregateStep (fun s l => ¬ l.1.LeavesSuspension s.aggregate) s₀ s →
      s.aggregate.user.status = .suspended ∧
        ∀ m session, ¬ (UserAggregate.recordLogin m).Succeeds s.aggregate ∧
          ¬ (UserAggregate.addSession session).Succeeds s.aggregate) ∧
      ∀ (c : AggregateCall) m m', c.LeavesSuspension s₀.aggregate →
        ((UserAggregate.activate m').after ((c.perform m).after s₀.aggregate)).user.status =
          .active := by
  refine ⟨fun s hreach => ?_, fun c m m' hleaves => active_of_leavesSuspension hsuspended hleaves m m'⟩
  have hstays : s.aggregate.user.status = .suspended := by
    induction hreach with
    | start => exact hsuspended
    | next _ hstay hs ih =>
      obtain ⟨-, rfl⟩ := hs
      exact AggregateCall.suspended_after _ ih hstay
  exact ⟨hstays, fun m session => recordLogin_addSession_of_suspended hstays m session⟩

/-- An identifier, for the runs on fixed inputs. -/
def ada : UniqueId := ⟨"00000000-0000-4000-8000-00000000000a", by decide +kernel⟩

/-- A user just created at time `0`. -/
def newcomer : UserAggregate :=
  { user :=
      { id := ada, email := ⟨"ada@example.com"⟩, password := ⟨"", some "$2a$12$ada"⟩,
        firstName := "Ada", lastName := "Byron", status := .pendingVerification,
        emailVerified := false, lastLoginAt := none, version := 1, createdAt := 0, updatedAt := 0,
        domainEvents := [⟨ada, ada, 0, .userCreated "ada@example.com"⟩] }
    roles := []
    sessions := [] }

theorem create_newcomer :
    UserAggregate.create ⟨"ada@example.com"⟩ ⟨"", some "$2a$12$ada"⟩ "Ada" "Byron" ada ⟨0, ada⟩ =
      .ok newcomer := rfl

/-- The aggregate after a list of calls at the times 1, 2, 3, … -/
def Clocked.calls (s : Clocked) (cs : List AggregateCall) : Clocked :=
  cs.foldl (fun s c => ⟨(c.perform ⟨s.time + 1, ada⟩).after s.aggregate, s.time + 1⟩) s

theorem reach_calls (s : Clocked) (cs : List AggregateCall) :
    Reach AggregateStep Always s (s.calls cs) := by
  induction cs generalizing s with
  | nil => exact .start
  | cons c cs ih =>
    have hfirst : AggregateStep s (c, ⟨s.time + 1, ada⟩)
        ⟨(c.perform ⟨s.time + 1, ada⟩).after s.aggregate, s.time + 1⟩ :=
      ⟨(lt_add_one s.time).le, rfl⟩
    exact (Reach.start.next trivial hfirst).trans (ih _)

/-- A suspended newcomer verifies its address and stays suspended; a
deactivation first would let it in. -/
theorem suspension_holds_newcomer :
    (((⟨newcomer, 0⟩ : Clocked).calls [.suspend, .verifyEmail]).aggregate.user.status =
        .suspended) ∧
      ∀ m m', ((UserAggregate.activate m').after ((UserAggregate.deactivate m).after
        ((⟨newcomer, 0⟩ : Clocked).calls [.suspend]).aggregate)).user.status = .active := by
  obtain ⟨hstays, hleaves⟩ := suspension_holds ((⟨newcomer, 0⟩ : Clocked).calls [.suspend]) rfl
  have hverify : AggregateStep ((⟨newcomer, 0⟩ : Clocked).calls [.suspend])
      (.verifyEmail, ⟨2, ada⟩) ((⟨newcomer, 0⟩ : Clocked).calls [.suspend, .verifyEmail]) :=
    ⟨by decide, rfl⟩
  exact ⟨(hstays _ (.next .start id hverify)).1, fun m m' => hleaves .deactivate m m' trivial⟩

/-- A user that is suspended, deactivated and activated again is active. -/
theorem not_suspension_holds :
    ¬ ∀ (email : Email) (password : Password) (firstName lastName : String) (id : UniqueId)
        (m : Moment) (a₀ : UserAggregate),
        UserAggregate.create email password firstName lastName id m = .ok a₀ →
        ∀ s, Reach AggregateStep Always ⟨a₀, m.now⟩ s → s.aggregate.user.status = .suspended →
          ∀ s', Reach AggregateStep Always s s' →
            s'.aggregate.user.status ≠ .active ∧
              ∀ m session, ¬ (UserAggregate.recordLogin m).Succeeds s'.aggregate ∧
                ¬ (UserAggregate.addSession session).Succeeds s'.aggregate := by
  intro h
  have hrun := h _ _ _ _ _ _ newcomer create_newcomer _ (reach_calls ⟨newcomer, 0⟩ [.suspend]) rfl
    _ (reach_calls _ [.deactivate, .activate])
  exact hrun.1 rfl

/-! ## Sessions -/

/-- Only a user who can log in has an active session, now or later. -/
def SessionsGuarded (s : Clocked) : Prop :=
  s.aggregate.user.canLogin = false →
    ∀ now, s.time ≤ now → s.aggregate.getActiveSessions now = []

/-- The call does not move the user to another address while a session is active. -/
def KeepsSessionsGuarded (s : Clocked) (l : AggregateCall × Moment) : Prop :=
  ∀ newEmail, l.1 = .changeEmail newEmail →
    s.aggregate.user.email = newEmail ∨ s.aggregate.getActiveSessions l.2.now = []

section

variable {a : UserAggregate} {now now' : Date}

theorem getActiveSessions_eq_nil :
    a.getActiveSessions now = [] ↔
      ∀ session ∈ a.sessions, session.revokedAt = none → session.expiresAt ≤ now := by
  simp [UserAggregate.getActiveSessions]

/-- Time only ends sessions. -/
theorem getActiveSessions_eq_nil_mono (h : a.getActiveSessions now = []) (hle : now ≤ now') :
    a.getActiveSessions now' = [] := by
  rw [getActiveSessions_eq_nil] at h ⊢
  exact fun session hmem hactive => (h session hmem hactive).trans hle

theorem getActiveSessions_revokeAllSessions (m : Moment) :
    ((UserAggregate.revokeAllSessions m).after a).getActiveSessions now = [] := by
  rw [getActiveSessions_eq_nil]
  intro session hmem hactive
  obtain ⟨old, -, rfl⟩ : ∃ old ∈ a.sessions,
      (if old.revokedAt = none then { old with revokedAt := some m.now } else old) = session :=
    List.mem_map.1 hmem
  split_ifs at hactive with hold
  exact absurd hactive hold

/-- Revoking one session activates no other. -/
theorem getActiveSessions_revokeSession (sessionId : UniqueId) (m : Moment)
    (h : a.getActiveSessions now = []) :
    ((UserAggregate.revokeSession sessionId m).after a).getActiveSessions now = [] := by
  unfold Method.after
  rw [AggregateCall.call_revokeSession]
  split
  · exact h
  · split_ifs
    · rw [getActiveSessions_eq_nil] at h ⊢
      intro other hmem hactive
      rcases List.mem_or_eq_of_mem_set hmem with hold | rfl
      · exact h other hold hactive
      · exact nomatch hactive
    · exact h

end

section

variable {s s' : Clocked} {l : AggregateCall × Moment}

/-- A call that leaves the user as it is, or able to log in, and activates no
session of others keeps the rule. -/
theorem SessionsGuarded.next (h : SessionsGuarded s) (hle : s.time ≤ s'.time)
    (hlogin : s.aggregate.user.canLogin = true → s'.aggregate.user.canLogin = true)
    (hsessions : ∀ now, s'.aggregate.user.canLogin = false →
      s.aggregate.getActiveSessions now = [] → s'.aggregate.getActiveSessions now = []) :
    SessionsGuarded s' := by
  intro hcannot now hnow
  refine hsessions now hcannot (h ?_ now (hle.trans hnow))
  exact Bool.eq_false_iff.2 fun hcan => Bool.eq_false_iff.1 hcannot (hlogin hcan)

/-- **Every other call keeps the rule.** -/
theorem SessionsGuarded.step (h : SessionsGuarded s) (hstep : AggregateStep s l s')
    (hkeep : ∀ newEmail, l.1 = .changeEmail newEmail → s.aggregate.user.email = newEmail) :
    SessionsGuarded s' := by
  obtain ⟨c, m⟩ := l
  obtain ⟨hle, rfl⟩ := hstep
  cases hu : c.userCall? with
  | some uc =>
    have hafter := AggregateCall.after_of_userCall? hu m s.aggregate
    refine h.next hle (fun hcan => ?_) fun now _ hnone => ?_
    · show ((c.perform m).after s.aggregate).user.canLogin = true
      rw [hafter]
      refine UserCall.canLogin_after m hcan ?_ ?_ fun newEmail heq => ?_
      · rintro rfl
        cases c <;> exact nomatch hu
      · rintro rfl
        cases c <;> exact nomatch hu
      · subst heq
        cases c <;> cases hu
        exact hkeep newEmail rfl
    · show ((c.perform m).after s.aggregate).getActiveSessions now = []
      rw [hafter]
      exact hnone
  | none =>
    have hsame := fun hsuspend hdeactivate =>
      AggregateCall.user_after (a := s.aggregate) (m := m) hu hsuspend hdeactivate
    cases c with
    | suspend =>
      by_cases hsuspended : s.aggregate.user.status = .suspended
      · have hafter : (AggregateCall.suspend.perform m).after s.aggregate = s.aggregate := by
          rw [AggregateCall.after_suspend, if_pos hsuspended]
        exact h.next hle (fun hcan => by rw [hafter]; exact hcan) fun now _ hnone => by
          rw [hafter]
          exact hnone
      · intro _ now _
        show ((AggregateCall.suspend.perform m).after s.aggregate).getActiveSessions now = []
        rw [AggregateCall.after_suspend, if_neg hsuspended]
        exact getActiveSessions_revokeAllSessions m
    | deactivate =>
      intro _ now _
      show ((AggregateCall.deactivate.perform m).after s.aggregate).getActiveSessions now = []
      rw [AggregateCall.after_deactivate]
      exact getActiveSessions_revokeAllSessions m
    | assignRole role =>
      refine h.next hle (fun hcan => (hsame nofun nofun).symm ▸ hcan) fun now _ hnone => ?_
      show (((AggregateCall.assignRole role).perform m).after s.aggregate).getActiveSessions now = []
      rw [AggregateCall.after_assignRole]
      split_ifs <;> exact hnone
    | removeRole roleId => exact h.next hle (fun hcan => hcan) fun now _ hnone => hnone
    | addSession session =>
      refine h.next hle (fun hcan => (hsame nofun nofun).symm ▸ hcan) fun now hcannot hnone => ?_
      rw [hsame nofun nofun] at hcannot
      show ((UserAggregate.addSession session).call s.aggregate).2.getActiveSessions now = []
      rw [AggregateCall.call_addSession]
      split_ifs with hactive hverified
      · exact hnone
      · exact hnone
      · simp [User.canLogin, hactive, hverified] at hcannot
    | revokeSession sessionId =>
      exact h.next hle (fun hcan => (hsame nofun nofun).symm ▸ hcan) fun now _ hnone =>
        getActiveSessions_revokeSession sessionId m hnone
    | revokeAllSessions =>
      exact h.next hle (fun hcan => hcan) fun now _ _ => getActiveSessions_revokeAllSessions m
    | _ => exact nomatch hu

/-- **A move to another address** leaves the sessions: the rule then says that
none was active. -/
theorem sessionsGuarded_changeEmail {newEmail : Email} {m : Moment}
    (hstep : AggregateStep s (.changeEmail newEmail, m) s')
    (hnew : s.aggregate.user.email ≠ newEmail) :
    SessionsGuarded s' ↔ s.aggregate.getActiveSessions m.now = [] := by
  obtain ⟨-, rfl⟩ := hstep
  have hafter : ((AggregateCall.changeEmail newEmail).perform m).after s.aggregate =
      { s.aggregate with user := ((User.changeEmail newEmail m).call s.aggregate.user).2 } := rfl
  have hcannot :
      (((AggregateCall.changeEmail newEmail).perform m).after s.aggregate).user.canLogin = false := by
    rw [hafter, User.call_changeEmail, if_neg hnew]
    rfl
  constructor
  · intro h
    have hnone := h hcannot m.now le_rfl
    rw [show ((AggregateCall.changeEmail newEmail).perform m).after s.aggregate = _ from hafter]
      at hnone
    exact hnone
  · intro hnone _ now hnow
    rw [show ((AggregateCall.changeEmail newEmail).perform m).after s.aggregate = _ from hafter]
    exact getActiveSessions_eq_nil_mono hnone hnow

/-- **One step** keeps the rule exactly when it meets the condition. -/
theorem sessionsGuarded_step (h : SessionsGuarded s) (hstep : AggregateStep s l s') :
    SessionsGuarded s' ↔ KeepsSessionsGuarded s l := by
  constructor
  · intro h' newEmail heq
    obtain ⟨c, m⟩ := l
    subst heq
    by_cases hnew : s.aggregate.user.email = newEmail
    · exact Or.inl hnew
    · exact Or.inr ((sessionsGuarded_changeEmail hstep hnew).1 h')
  · intro hkeep
    by_cases hmoves : ∃ newEmail, l.1 = .changeEmail newEmail ∧ s.aggregate.user.email ≠ newEmail
    · obtain ⟨newEmail, heq, hnew⟩ := hmoves
      obtain ⟨c, m⟩ := l
      subst heq
      exact (sessionsGuarded_changeEmail hstep hnew).2 ((hkeep newEmail rfl).resolve_left hnew)
    · refine h.step hstep fun newEmail heq => ?_
      by_contra hnew
      exact hmoves ⟨newEmail, heq, hnew⟩

end

/-- Where a history of an aggregate begins: it is created, or it is loaded and
meets the rule. -/
inductive Clocked.Starts : Clocked → Prop where
  | created {email : Email} {password : Password} {firstName lastName : String} {id : UniqueId}
      {m : Moment} {a : UserAggregate} :
      UserAggregate.create email password firstName lastName id m = .ok a → Starts ⟨a, m.now⟩
  | reconstituted {user : User} {roles : Option (List RoleAssignment)}
      {sessions : Option (List SessionInfo)} {now : Date} :
      SessionsGuarded ⟨.reconstitute user roles sessions, now⟩ →
      Starts ⟨.reconstitute user roles sessions, now⟩

theorem Clocked.Starts.sessionsGuarded {s : Clocked} (h : s.Starts) : SessionsGuarded s := by
  cases h with
  | created hcreate =>
    obtain ⟨user, -, hcreated⟩ := bind_eq_ok.1 hcreate
    cases hcreated
    exact fun _ _ _ => rfl
  | reconstituted h => exact h

/-- **Sessions only for users who can log in**: over every run the rule holds in
all states reached exactly when no call moves the user to another address while
a session is active. -/
theorem sessionsGuarded_iff {s₀ s : Clocked} {steps : List (Clocked × (AggregateCall × Moment) × Clocked)}
    (hstart : s₀.Starts) (hrun : Run AggregateStep Always s₀ steps s) :
    SessionsGuarded s₀ ∧
      ((∀ p ∈ steps, SessionsGuarded p.2.2) ↔ ∀ p ∈ steps, KeepsSessionsGuarded p.1 p.2.1) :=
  ⟨hstart.sessionsGuarded,
    hrun.forall_iff hstart.sessionsGuarded fun hguarded _ hstep => sessionsGuarded_step hguarded hstep⟩

/-- A session that lasts. -/
def adasSession : SessionInfo :=
  { id := ada, userAgent := none, ipAddress := none, expiresAt := 1000, createdAt := 0,
    revokedAt := none }

/-- The newcomer verifies its address: the rule holds. -/
theorem sessionsGuarded_iff_newcomer :
    SessionsGuarded ((⟨newcomer, 0⟩ : Clocked).calls [.verifyEmail]) := by
  have hverify : AggregateStep ⟨newcomer, 0⟩ (.verifyEmail, ⟨1, ada⟩)
      ((⟨newcomer, 0⟩ : Clocked).calls [.verifyEmail]) := ⟨by decide, rfl⟩
  have hiff := (sessionsGuarded_iff (.created create_newcomer) (.next .start trivial hverify)).2
  refine hiff.2 (fun p hp => ?_) _ (List.mem_singleton_self _)
  obtain rfl := List.mem_singleton.1 hp
  exact fun _ => nofun

/-- **The rule is broken** by a change of the address: the session of the old
address stays active. -/
theorem not_sessionsGuarded :
    ¬ ∀ s₀ s : Clocked, s₀.Starts → Reach AggregateStep Always s₀ s → SessionsGuarded s := by
  intro h
  have hbroken := h _ _ (.created create_newcomer) (reach_calls _
    [.verifyEmail, .addSession adasSession, .changeEmail ⟨"ada@example.org"⟩])
  exact absurd (hbroken rfl 3 le_rfl) (by decide)

end EnterpriseSystem.Identity
