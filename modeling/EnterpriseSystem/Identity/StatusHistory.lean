import EnterpriseSystem.Base.History
import EnterpriseSystem.Identity.Mutators

/-!
# The history of the status

`UserStatusChangedEvent` records every change of the status, so that the status can
be replayed from the events.  `changeEmail` sends the user back to
`PENDING_VERIFICATION` and records nothing.

* `Watched` — a user together with the events that were pulled from it.
* `StatusReplays` — the recorded changes lead from the first status to the current
  one.
* `statusReplays_iff` — they do exactly when no call moved a user whose
  verification was not pending to another address.
-/

namespace EnterpriseSystem.Identity

open Objects Relational History

/-- A user, and the events that were pulled from it so far. -/
structure Watched where
  user : User
  pulled : List DomainEvent
  deriving DecidableEq

/-- All events raised, the first one first. -/
def Watched.raised (w : Watched) : List DomainEvent := w.pulled ++ w.user.domainEvents

/-- The changes the events tell of. -/
def statusChanges (events : List DomainEvent) : List (Change UserStatus) :=
  events.filterMap fun e =>
    match e.happening with
    | .userCreated _ => none
    | .userStatusChanged oldStatus newStatus => some ⟨oldStatus, newStatus⟩

/-- One call; the caller catches what it throws and keeps what it pulls. -/
def Watched.step (w : Watched) (l : UserCall × Moment) : Watched where
  user := (l.1.perform l.2).after w.user
  pulled := if l.1 = .pullDomainEvents then w.pulled ++ w.user.domainEvents else w.pulled

/-- The events raised since `s₀` was the status lead to the status the user has. -/
def StatusReplays (s₀ : UserStatus) (w : Watched) : Prop :=
  Leads s₀ (statusChanges w.raised) w.user.status

/-- The call moves the user to another address, and its verification was not pending. -/
def UserCall.HidesStatus (u : User) : UserCall → Prop
  | .changeEmail newEmail => u.email ≠ newEmail ∧ u.status ≠ .pendingVerification
  | _ => False

/-- A user as `create` or `reconstitute` makes it. -/
inductive User.Made : User → Prop where
  | created {email : Email} {password : Password} {firstName lastName : String} {id : UniqueId}
      {m : Moment} {u : User} :
      User.create email password firstName lastName id m = .ok u → Made u
  | reconstituted (id : UniqueId) (email : Email) (password : Password)
      (firstName lastName : String) (status : UserStatus) (emailVerified : Bool)
      (lastLoginAt : Option Date) (version : ℤ) (createdAt updatedAt : Date) :
      Made (.reconstitute id email password firstName lastName status emailVerified lastLoginAt
        version createdAt updatedAt)

section

variable {w : Watched} {s₀ : UserStatus} {c : UserCall} {m : Moment}

theorem statusChanges_append (events events' : List DomainEvent) :
    statusChanges (events ++ events') = statusChanges events ++ statusChanges events' :=
  List.filterMap_append

/-- A user just made has no changes behind it. -/
theorem User.Made.statusChanges_eq_nil {u : User} (h : u.Made) :
    statusChanges u.domainEvents = [] := by
  cases h with
  | created hcreate =>
    obtain ⟨_, -, hrest⟩ := Concurrency.bind_eq_ok.1 hcreate
    obtain ⟨_, -, hcreated⟩ := Concurrency.bind_eq_ok.1 hrest
    cases hcreated
    rfl
  | reconstituted => rfl

theorem Watched.raised_step (hpull : c ≠ .pullDomainEvents) {events : List DomainEvent}
    (h : ((c.perform m).after w.user).domainEvents = w.user.domainEvents ++ events) :
    (w.step (c, m)).raised = w.raised ++ events := by
  show (if c = .pullDomainEvents then _ else w.pulled) ++ ((c.perform m).after w.user).domainEvents =
    w.pulled ++ w.user.domainEvents ++ events
  rw [if_neg hpull, h, List.append_assoc]

theorem Watched.raised_pull (w : Watched) (m : Moment) :
    (w.step (.pullDomainEvents, m)).raised = w.raised := by
  show (w.pulled ++ w.user.domainEvents) ++ [] = w.pulled ++ w.user.domainEvents
  exact List.append_nil _

/-- **A hidden change**: the status goes back to `PENDING_VERIFICATION`, and no event
is raised. -/
theorem Watched.step_of_hidesStatus (h : c.HidesStatus w.user) (m : Moment) :
    (w.step (c, m)).user.status = .pendingVerification ∧
      statusChanges (w.step (c, m)).raised = statusChanges w.raised := by
  cases c with
  | changeEmail newEmail =>
    have hafter : ((UserCall.changeEmail newEmail).perform m).after w.user = { w.user with
        email := newEmail, emailVerified := false, status := .pendingVerification,
        version := w.user.version + 1, updatedAt := m.now } := by
      show ((User.changeEmail newEmail m).call w.user).2 = _
      rw [User.call_changeEmail, if_neg h.1]
    have hevents : (((UserCall.changeEmail newEmail).perform m).after w.user).domainEvents =
        w.user.domainEvents ++ [] := by
      rw [List.append_nil, hafter]
    have hpull : UserCall.changeEmail newEmail ≠ .pullDomainEvents := nofun
    rw [Watched.raised_step hpull hevents, List.append_nil]
    refine ⟨?_, rfl⟩
    show (((UserCall.changeEmail newEmail).perform m).after w.user).status = _
    rw [hafter]
  | _ => exact h.elim

theorem UserCall.HidesStatus.not_pending {u : User} (h : c.HidesStatus u) :
    u.status ≠ .pendingVerification := by
  cases c with
  | changeEmail newEmail => exact h.2
  | _ => exact h.elim

/-- **Any other call** leaves the status alone, or raises the event of its change. -/
theorem Watched.step_of_not_hidesStatus (h : ¬ c.HidesStatus w.user) (m : Moment) :
    ((w.step (c, m)).user.status = w.user.status ∧
        statusChanges (w.step (c, m)).raised = statusChanges w.raised) ∨
      (w.user.status ≠ (w.step (c, m)).user.status ∧
        statusChanges (w.step (c, m)).raised =
          statusChanges w.raised ++ [⟨w.user.status, (w.step (c, m)).user.status⟩]) := by
  by_cases hpull : c = .pullDomainEvents
  · subst hpull
    rw [Watched.raised_pull]
    exact Or.inl ⟨rfl, rfl⟩
  · rcases c.effect_or_idle hpull m w.user with ⟨heffective, -, heffect⟩ | ⟨-, hsame⟩
    · rcases heffect.move with ⟨hstatus, hevents⟩ | ⟨hstatus, hevents⟩ | ⟨newEmail, rfl, hstatus, hevents⟩
      · rw [Watched.raised_step hpull (hevents.trans (List.append_nil _).symm), List.append_nil]
        exact Or.inl ⟨hstatus, rfl⟩
      · rw [Watched.raised_step hpull hevents, statusChanges_append]
        exact Or.inr ⟨hstatus.symm, rfl⟩
      · -- the address changes, so the verification was pending already
        have hpending : w.user.status = .pendingVerification := by
          by_contra hne
          exact h ⟨heffective, hne⟩
        rw [Watched.raised_step hpull (hevents.trans (List.append_nil _).symm), List.append_nil]
        exact Or.inl ⟨hstatus.trans hpending.symm, rfl⟩
    · have hevents : ((c.perform m).after w.user).domainEvents = w.user.domainEvents ++ [] := by
        rw [hsame, List.append_nil]
      rw [Watched.raised_step hpull hevents, List.append_nil]
      exact Or.inl ⟨congrArg User.status hsame, rfl⟩

/-- **One call**: the status stays replayable unless the call hides its change. -/
theorem StatusReplays.step (h : StatusReplays s₀ w) (m : Moment) (hshown : ¬ c.HidesStatus w.user) :
    StatusReplays s₀ (w.step (c, m)) := by
  unfold StatusReplays
  rcases Watched.step_of_not_hidesStatus hshown m with ⟨hstatus, hchanges⟩ | ⟨hmoves, hchanges⟩
  · rw [hstatus, hchanges]
    exact h
  · rw [hchanges]
    exact h.tell hmoves

/-- The record of the status went wrong when the status went back to
`PENDING_VERIFICATION`. -/
def StatusAstray (s₀ : UserStatus) (w : Watched) : Prop :=
  Astray .pendingVerification s₀ (statusChanges w.raised) w.user.status

theorem StatusReplays.hide (h : StatusReplays s₀ w) (m : Moment) (hhides : c.HidesStatus w.user) :
    StatusAstray s₀ (w.step (c, m)) := by
  obtain ⟨hstatus, hchanges⟩ := Watched.step_of_hidesStatus hhides m
  unfold StatusAstray
  rw [hstatus, hchanges]
  exact Leads.hide h hhides.not_pending

/-- No call mends the record. -/
theorem StatusAstray.step (h : StatusAstray s₀ w) (c : UserCall) (m : Moment) :
    StatusAstray s₀ (w.step (c, m)) := by
  unfold StatusAstray
  by_cases hhides : c.HidesStatus w.user
  · obtain ⟨hstatus, hchanges⟩ := Watched.step_of_hidesStatus hhides m
    rw [hstatus, hchanges]
    exact Astray.hide h
  · rcases Watched.step_of_not_hidesStatus hhides m with ⟨hstatus, hchanges⟩ | ⟨-, hchanges⟩
    · rw [hstatus, hchanges]
      exact h
    · rw [hchanges]
      exact Astray.tell h

theorem User.Made.statusReplays {u : User} (h : u.Made) : StatusReplays u.status ⟨u, []⟩ := by
  show Leads u.status (statusChanges ([] ++ u.domainEvents)) u.status
  rw [List.nil_append, h.statusChanges_eq_nil]
  exact .nil u.status

end

/-- **The status is replayable** from the events, for a user just made and any
sequence of calls, exactly when none of the calls moved it to another address
while its verification was not pending. -/
theorem statusReplays_iff {u : User} (hmade : u.Made) {w : Watched}
    {steps : List (Watched × (UserCall × Moment) × Watched)}
    (hrun : Run (Deterministic Watched.step) Always ⟨u, []⟩ steps w) :
    StatusReplays u.status w ↔ ∀ p ∈ steps, ¬ p.2.1.1.HidesStatus p.1.user := by
  have hkeep : ∀ {w : Watched} {l : UserCall × Moment} {w' : Watched}, StatusReplays u.status w →
      Deterministic Watched.step w l w' → ¬ l.1.HidesStatus w.user → StatusReplays u.status w' := by
    rintro w ⟨c, m⟩ _ hreplays rfl hshown
    exact hreplays.step m hshown
  have hbreak : ∀ {w : Watched} {l : UserCall × Moment} {w' : Watched}, StatusReplays u.status w →
      Deterministic Watched.step w l w' → ¬ ¬ l.1.HidesStatus w.user → StatusAstray u.status w' := by
    rintro w ⟨c, m⟩ _ hreplays rfl hhides
    exact hreplays.hide m (not_not.1 hhides)
  have hstay : ∀ {w : Watched} {l : UserCall × Moment} {w' : Watched}, StatusAstray u.status w →
      Deterministic Watched.step w l w' → StatusAstray u.status w' := by
    rintro w ⟨c, m⟩ _ hastray rfl
    exact hastray.step c m
  exact hrun.iff_of_absorbing hmade.statusReplays (fun _ => Astray.not_leads) hkeep hbreak hstay

theorem made_newcomer : newcomer.user.Made := by
  have hcreate : User.create ⟨"ada@example.com"⟩ ⟨"", some "$2a$12$ada"⟩ "Ada" "Byron" ada ⟨0, ada⟩ =
      .ok newcomer.user := rfl
  exact .created hcreate

/-- The calls on a user, one after another. -/
theorem Watched.run (w : Watched) (calls : List (UserCall × Moment)) :
    Run (Deterministic Watched.step) Always w (trace Watched.step w calls)
      (calls.foldl Watched.step w) :=
  run_trace fun _ hp => ⟨trivial, mem_trace hp⟩

/-- The newcomer verifies its address and is suspended. -/
theorem statusReplays_iff_newcomer :
    StatusReplays .pendingVerification
      ([(.verifyEmail, ⟨1, ada⟩), (.suspend, ⟨2, ada⟩)].foldl Watched.step ⟨newcomer.user, []⟩) := by
  refine (statusReplays_iff (u := newcomer.user) made_newcomer
    (run_trace fun p hp => ⟨trivial, mem_trace hp⟩)).2 fun p hp => ?_
  obtain rfl | rfl : p = _ ∨ p = _ := by simpa [trace] using hp
  · exact id
  · exact id

/-- **A change of the address is not replayed**: the events say `ACTIVE`. -/
theorem not_statusReplays :
    ¬ ∀ (u : User) (w : Watched) (steps : List (Watched × (UserCall × Moment) × Watched)),
        u.Made → Run (Deterministic Watched.step) Always ⟨u, []⟩ steps w →
        StatusReplays u.status w := by
  intro h
  have hreplays := h newcomer.user _ _ made_newcomer (Watched.run _
    [(.verifyEmail, ⟨1, ada⟩), (.changeEmail ⟨"ada@example.org"⟩, ⟨2, ada⟩)])
  exact absurd hreplays.ends (by decide)

end EnterpriseSystem.Identity
