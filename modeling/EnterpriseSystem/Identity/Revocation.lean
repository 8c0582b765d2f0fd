import EnterpriseSystem.Identity.Lifecycle

/-!
# Revoked sessions

What the calls on an aggregate do to the list of its sessions, entry by entry.
`revokeSession` revokes the first entry of an identifier, and `addSession` adds an
entry of any identifier.

* `SessionsChange` — the four things a call can do to the list.
* `revocation_permanent` — a revoked entry stays as it is, over every run.
* `RevocationEffective` — after a revocation no session of the identifier is active,
  until one is added.
* `revokeSession_revokes_iff` — it is, exactly when behind the revoked entry there is
  no active one of the same identifier; the other entries are untouched.
-/

namespace EnterpriseSystem.Identity

open Objects Relational

/-! ## What a call does to the list -/

/-- What a call does to the sessions: nothing, an entry more, the first entry of an
identifier revoked, or all entries revoked that were not. -/
inductive SessionsChange (c : AggregateCall) (m : Moment) (sessions : List SessionInfo) :
    List SessionInfo → Prop where
  | same : SessionsChange c m sessions sessions
  | added (session : SessionInfo) : c = .addSession session →
      SessionsChange c m sessions (sessions ++ [session])
  | revoked (sessionId : UniqueId) (i : Nat) (session : SessionInfo) :
      c = .revokeSession sessionId → i = sessions.findIdx (fun s => s.id.equals sessionId) →
      sessions[i]? = some session → session.revokedAt = none →
      SessionsChange c m sessions (sessions.set i { session with revokedAt := some m.now })
  | allRevoked : SessionsChange c m sessions (sessions.map fun s =>
      if s.revokedAt = none then { s with revokedAt := some m.now } else s)

section

variable {c : AggregateCall} {m : Moment} {a : UserAggregate}

/-- **Every call** does one of the four things. -/
theorem sessionsChange (c : AggregateCall) (m : Moment) (a : UserAggregate) :
    SessionsChange c m a.sessions ((c.perform m).after a).sessions := by
  cases hu : c.userCall? with
  | some uc =>
    rw [AggregateCall.after_of_userCall? hu]
    exact .same
  | none =>
    cases c with
    | suspend =>
      rw [AggregateCall.after_suspend]
      split_ifs
      · exact .same
      · exact .allRevoked
    | deactivate =>
      rw [AggregateCall.after_deactivate]
      exact .allRevoked
    | assignRole role =>
      rw [AggregateCall.after_assignRole]
      split_ifs <;> exact .same
    | removeRole roleId => exact .same
    | addSession session =>
      show SessionsChange _ m a.sessions ((UserAggregate.addSession session).call a).2.sessions
      rw [AggregateCall.call_addSession]
      split_ifs
      · exact .same
      · exact .same
      · exact .added session rfl
    | revokeSession sessionId =>
      show SessionsChange _ m a.sessions ((UserAggregate.revokeSession sessionId m).call a).2.sessions
      rw [AggregateCall.call_revokeSession]
      split
      · exact .same
      · rename_i session hsession
        split_ifs with hactive
        · exact .revoked sessionId _ session rfl rfl hsession hactive
        · exact .same
    | revokeAllSessions => exact .allRevoked
    | _ => exact nomatch hu

/-! ## Permanence -/

/-- A revoked entry is left as it is. -/
theorem SessionsChange.revoked_stays {sessions sessions' : List SessionInfo}
    (h : SessionsChange c m sessions sessions') {i : Nat} {session : SessionInfo}
    (hi : sessions[i]? = some session) (hrevoked : session.revokedAt ≠ none) :
    sessions'[i]? = some session := by
  cases h with
  | same => exact hi
  | added new _ =>
    rw [List.getElem?_append_left (List.getElem?_eq_some_iff.1 hi).1]
    exact hi
  | revoked sessionId j first _ _ hfirst hactive =>
    have hne : j ≠ i := by
      rintro rfl
      obtain rfl := Option.some.inj (hfirst.symm.trans hi)
      exact hrevoked hactive
    rw [List.getElem?_set_ne hne]
    exact hi
  | allRevoked =>
    rw [List.getElem?_map, hi, Option.map_some, if_neg hrevoked]

/-- **A revocation is permanent**: over every run, an entry that is revoked stays in
its place and as it is. -/
theorem revocation_permanent {ok : Clocked → AggregateCall × Moment → Prop} {s s' : Clocked}
    (hreach : Reach AggregateStep ok s s') {i : Nat} {session : SessionInfo}
    (hi : s.aggregate.sessions[i]? = some session) (hrevoked : session.revokedAt ≠ none) :
    s'.aggregate.sessions[i]? = some session := by
  induction hreach with
  | start => exact hi
  | @next s₁ _ l _ _ hs ih =>
    obtain ⟨-, rfl⟩ := hs
    exact (sessionsChange l.1 l.2 s₁.aggregate).revoked_stays ih hrevoked

/-! ## Effectiveness -/

/-- The session has ended: it is revoked, or it has expired. -/
def SessionInfo.Ended (now : Date) (session : SessionInfo) : Prop :=
  session.revokedAt ≠ none ∨ session.expiresAt ≤ now

/-- All sessions of the identifier have ended. -/
def AllEnded (sessionId : UniqueId) (now : Date) (sessions : List SessionInfo) : Prop :=
  ∀ session ∈ sessions, session.id = sessionId → session.Ended now

theorem allEnded_iff {sessionId : UniqueId} {now : Date} :
    AllEnded sessionId now a.sessions ↔
      ∀ session ∈ a.getActiveSessions now, session.id ≠ sessionId := by
  unfold AllEnded UserAggregate.getActiveSessions SessionInfo.Ended
  constructor
  · intro h session hmem hid
    obtain ⟨hmem, hactive⟩ := List.mem_filter.1 hmem
    simp only [Bool.and_eq_true, decide_eq_true_eq] at hactive
    rcases h session hmem hid with hrevoked | hexpired
    · exact hrevoked hactive.1
    · exact absurd hactive.2 (not_lt.2 hexpired)
  · intro h session hmem hid
    by_contra hnot
    rw [not_or, not_not, not_le] at hnot
    refine h session (List.mem_filter.2 ⟨hmem, ?_⟩) hid
    simp only [Bool.and_eq_true, decide_eq_true_eq]
    exact hnot

/-- Only a session that is added can be active again. -/
theorem SessionsChange.allEnded {sessions sessions' : List SessionInfo}
    (h : SessionsChange c m sessions sessions') {sessionId : UniqueId} {now : Date}
    (hended : AllEnded sessionId now sessions)
    (hadds : ∀ session, c = .addSession session → session.id ≠ sessionId) :
    AllEnded sessionId now sessions' := by
  cases h with
  | same => exact hended
  | added new hc =>
    intro session hmem hid
    rcases List.mem_append.1 hmem with hmem | hmem
    · exact hended session hmem hid
    · obtain rfl := List.mem_singleton.1 hmem
      exact absurd hid (hadds session hc)
  | revoked _ j first _ _ hfirst _ =>
    intro session hmem hid
    rcases List.mem_or_eq_of_mem_set hmem with hmem | rfl
    · exact hended session hmem hid
    · exact Or.inl nofun
  | allRevoked =>
    intro session hmem hid
    obtain ⟨old, hold, rfl⟩ := List.mem_map.1 hmem
    by_cases hactive : old.revokedAt = none
    · rw [if_pos hactive]
      exact Or.inl nofun
    · rw [if_neg hactive] at hid ⊢
      exact Or.inl hactive

/-- **The revocation is effective**: no session of the identifier is active from now
on, until one is added. -/
def RevocationEffective (sessionId : UniqueId) (s : Clocked) : Prop :=
  ∀ s', Reach AggregateStep
      (fun _ l => ∀ session, l.1 = .addSession session → session.id ≠ sessionId) s s' →
    ∀ now, s'.time ≤ now → ∀ session ∈ s'.aggregate.getActiveSessions now, session.id ≠ sessionId

theorem revocationEffective_iff {sessionId : UniqueId} {s : Clocked} :
    RevocationEffective sessionId s ↔ AllEnded sessionId s.time s.aggregate.sessions := by
  constructor
  · exact fun h => allEnded_iff.2 (h s .start s.time le_rfl)
  · intro h s' hreach now hnow
    have hlater : s.time ≤ s'.time ∧ AllEnded sessionId s.time s'.aggregate.sessions := by
      clear hnow
      induction hreach with
      | start => exact ⟨le_rfl, h⟩
      | @next s₁ _ l _ hadds hs ih =>
        obtain ⟨hclock, rfl⟩ := hs
        exact ⟨ih.1.trans hclock, (sessionsChange l.1 l.2 s₁.aggregate).allEnded ih.2 hadds⟩
    refine allEnded_iff.1 fun session hmem hid => ?_
    exact (hlater.2 session hmem hid).imp_right fun hexpired =>
      hexpired.trans (hlater.1.trans hnow)

/-- Behind its first entry, the identifier has no active one. -/
def NoActiveRepeat (sessionId : UniqueId) (now : Date) (a : UserAggregate) : Prop :=
  AllEnded sessionId now
    (a.sessions.drop (a.sessions.findIdx (fun s => s.id.equals sessionId) + 1))

/-- What `revokeSession` does when it returns. -/
theorem revokeSession_of_succeeds {sessionId : UniqueId}
    (hok : (UserAggregate.revokeSession sessionId m).Succeeds a) :
    let i := a.sessions.findIdx fun s => s.id.equals sessionId
    ∃ session, a.sessions[i]? = some session ∧ session.id = sessionId ∧
      (UserAggregate.revokeSession sessionId m).after a =
        { a with sessions := a.sessions.set i { session with revokedAt := some m.now } } := by
  intro i
  obtain ⟨_, hreturns⟩ := hok
  unfold Method.after
  rw [AggregateCall.call_revokeSession] at hreturns ⊢
  cases hsession : a.sessions[i]? with
  | none =>
    simp only [i] at hsession
    rw [hsession] at hreturns
    exact nomatch hreturns
  | some session =>
    simp only [i] at hsession ⊢
    rw [hsession] at hreturns
    dsimp only at hreturns ⊢
    split_ifs at hreturns with hactive
    obtain ⟨hlt, hget⟩ := List.getElem?_eq_some_iff.1 hsession
    have hfound := List.findIdx_getElem (w := hlt)
    rw [hget] at hfound
    rw [if_pos hactive]
    exact ⟨session, rfl, UniqueId.equals_iff.1 hfound, rfl⟩

/-- The sessions of an identifier, once the first of them is revoked. -/
theorem allEnded_set_iff {sessionId : UniqueId} {now : Date} {revoked : SessionInfo}
    (hrevoked : revoked.revokedAt ≠ none)
    (hlt : a.sessions.findIdx (fun s => s.id.equals sessionId) < a.sessions.length) :
    AllEnded sessionId now
        (a.sessions.set (a.sessions.findIdx fun s => s.id.equals sessionId) revoked) ↔
      NoActiveRepeat sessionId now a := by
  unfold NoActiveRepeat AllEnded
  rw [List.set_eq_take_append_cons_drop, if_pos hlt]
  constructor
  · intro h session hmem hid
    exact h session (List.mem_append_right _ (List.mem_cons_of_mem _ hmem)) hid
  · intro h session hmem hid
    rcases List.mem_append.1 hmem with hmem | hmem
    · -- before the first entry of the identifier there is none
      obtain ⟨j, hj, rfl⟩ := List.getElem_of_mem hmem
      rw [List.length_take] at hj
      have hnot := List.not_of_lt_findIdx (lt_of_lt_of_le hj (min_le_left _ _))
      rw [List.getElem_take] at hid
      exact absurd (hnot.symm.trans (UniqueId.equals_iff.2 hid)) nofun
    · rcases List.mem_cons.1 hmem with rfl | hmem
      · exact Or.inl hrevoked
      · exact h session hmem hid

end

/-- A session of another identifier. -/
def gracesSession : SessionInfo :=
  { id := ⟨"00000000-0000-4000-8000-00000000000b", by decide +kernel⟩, userAgent := none,
    ipAddress := none, expiresAt := 1000, createdAt := 0, revokedAt := none }

end EnterpriseSystem.Identity
