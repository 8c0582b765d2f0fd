import EnterpriseSystem.Authentication.AuthService

/-!
# What a logout changes

`AuthService.revokeToken` with a refresh token revokes the session of that token,
and falls through to all sessions of the user when it does not find it.

* `LogoutFrame` — no session has changed but one of the user whose hash matches.
* `Recognised`, `SignedOut`, `CutShort` — the token matches an unrevoked session of
  the user; there is none; an operation fails before the sessions are revoked.
* `logoutFrame_iff` — these are the cases in which nothing else changes.
-/

namespace EnterpriseSystem.Authentication

open Identity Relational Concurrency AuthService

variable {host : SessionHost} {userId refreshToken : String} {now : Date} {w : SessionWorld}

/-- The store after `revokeToken`, whether it returns or throws. -/
def afterLogout (host : SessionHost) (userId refreshToken : String) (now : Date)
    (w : SessionWorld) : SessionWorld :=
  (Task.run (SessionOp.exec host) (revokeToken userId (some refreshToken) now) w).2

/-- The session is one of the user, and the token matches its hash. -/
def Matching (host : SessionHost) (userId refreshToken : String) (w : SessionWorld) (id : DbUuid) :
    Prop :=
  ∃ s value, w.sessions.get? id = some s ∧ host.uuid? userId = some s.userId ∧
    valuePart refreshToken = some value ∧ host.bcryptCompare value s.refreshToken = true

/-- **The frame of a logout**: a session is as it was, unless the token matches it. -/
def LogoutFrame (host : SessionHost) (userId refreshToken : String) (now : Date)
    (w : SessionWorld) : Prop :=
  ∀ id, (afterLogout host userId refreshToken now w).sessions.get? id = w.sessions.get? id ∨
    Matching host userId refreshToken w id

/-- An unrevoked session of the user. -/
def OpenSession (host : SessionHost) (userId : String) (w : SessionWorld) (s : Session) : Prop :=
  s ∈ w.sessions ∧ host.uuid? userId = some s.userId ∧ s.revokedAt = none

/-- The token matches an unrevoked session of the user. -/
def Recognised (host : SessionHost) (userId refreshToken : String) (w : SessionWorld) : Prop :=
  ∃ s value, OpenSession host userId w s ∧ valuePart refreshToken = some value ∧
    host.bcryptCompare value s.refreshToken = true

/-- The user has no unrevoked session. -/
def SignedOut (host : SessionHost) (userId : String) (w : SessionWorld) : Prop :=
  ∀ s, ¬ OpenSession host userId w s

/-- The unrevoked sessions of the user, as `findMany` finds them. -/
def openSessions (host : SessionHost) (userId : String) (w : SessionWorld) : List Session :=
  w.sessions.rows.filter (SessionWhere.selects host { userId := userId, revoked := false })

/-- How many operations it takes to revoke all sessions: the update, behind the query
and the comparisons when there is a random part to compare. -/
def operations (host : SessionHost) (userId refreshToken : String) (w : SessionWorld) : ℕ :=
  match valuePart refreshToken with
  | some _ => (openSessions host userId w).length + 2
  | none => 1

/-- One of these operations fails on its own account. -/
def CutShort (host : SessionHost) (userId refreshToken : String) (w : SessionWorld) : Prop :=
  ∃ k < operations host userId refreshToken w, w.faults (w.performed + k) = true

theorem mem_openSessions {s : Session} :
    s ∈ openSessions host userId w ↔ OpenSession host userId w s := by
  rw [openSessions, List.mem_filter, selects_unrevoked]
  exact Iff.rfl

/-! ## All sessions -/

/-- The last statement of `revokeToken`. -/
def revokeOpen (userId : String) (now : Date) : SessionTask Unit := do
  let _ ← SessionTask.updateMany { userId := userId, revoked := false } now

/-- **Revoking all sessions** leaves a session alone exactly when it is none of the
open ones, or the update fails. -/
theorem revokeOpen_unchanged_iff {id : DbUuid} :
    (Task.run (SessionOp.exec host) (revokeOpen userId now) w).2.sessions.get? id =
        w.sessions.get? id ↔
      w.down = true ∨ ∀ s, w.sessions.get? id = some s → ¬ OpenSession host userId w s := by
  have hrun : Task.run (SessionOp.exec host)
      (SessionTask.updateMany { userId := userId, revoked := false } now) w =
      (SessionOp.updateMany { userId := userId, revoked := false } now).exec host w := rfl
  rw [revokeOpen, Task.run_bind, hrun]
  cases hdown : w.down with
  | true =>
    rw [exec_of_down hdown]
    exact iff_of_true rfl (Or.inl rfl)
  | false =>
    rw [exec_of_up hdown, SessionOp.perform, or_iff_right Bool.false_ne_true]
    cases huser : host.uuid? userId with
    | none =>
      have hill : SessionWhere.wellTyped host { userId := userId, revoked := false } = false := by
        simp [SessionWhere.wellTyped, huser]
      rw [hill]
      refine iff_of_true rfl fun s _ hopen => ?_
      cases huser.symm.trans hopen.2.1
    | some u =>
      have hwell : SessionWhere.wellTyped host { userId := userId, revoked := false } = true := by
        simp [SessionWhere.wellTyped, huser]
      rw [hwell]
      show (w.sessions.update (SessionWhere.selects host { userId := userId, revoked := false })
        (Session.revoke now) (Session.id_revoke now)).get? id = w.sessions.get? id ↔ _
      rw [Table.get?_update]
      cases hrow : w.sessions.get? id with
      | none => exact iff_of_true rfl (by simp)
      | some s =>
        rw [Option.map_some, Option.some.injEq]
        simp only [Option.some.injEq, forall_eq', selects_unrevoked]
        have hmem := Table.mem_of_get? hrow
        constructor
        · rintro hsame ⟨-, hopen⟩
          rw [if_pos hopen] at hsame
          have hrevoked := congrArg Session.revokedAt hsame
          rw [hopen.2] at hrevoked
          cases hrevoked
        · exact fun hclosed => if_neg fun hopen => hclosed ⟨hmem, hopen⟩

/-- Revoking all sessions after a token that was not recognised. -/
theorem frame_revokeOpen_iff {v : SessionWorld} (hv : v.sessions = w.sessions)
    (hunknown : ¬ Recognised host userId refreshToken w) :
    (∀ id, (Task.run (SessionOp.exec host) (revokeOpen userId now) v).2.sessions.get? id =
        w.sessions.get? id ∨ Matching host userId refreshToken w id) ↔
      v.down = true ∨ SignedOut host userId w := by
  have hunchanged (id : DbUuid) : (Task.run (SessionOp.exec host) (revokeOpen userId now) v).2.sessions.get? id =
      v.sessions.get? id ↔
        v.down = true ∨ ∀ s, v.sessions.get? id = some s → ¬ OpenSession host userId v s :=
    revokeOpen_unchanged_iff
  have hopen : ∀ s, OpenSession host userId v s ↔ OpenSession host userId w s := fun s => by
    rw [OpenSession, hv]
    exact Iff.rfl
  rw [hv] at hunchanged
  constructor
  · intro h
    rw [or_iff_not_imp_left]
    rintro hup s ⟨hmem, hown⟩
    rcases h s.id with hsame | ⟨s', value, hs', -, hvalue, hmatch⟩
    · rcases (hunchanged s.id).1 hsame with hdown | hclosed
      · exact hup hdown
      · exact hclosed s (Table.get?_of_mem hmem) ((hopen s).2 ⟨hmem, hown⟩)
    · obtain rfl := Option.some.inj ((Table.get?_of_mem hmem).symm.trans hs')
      exact hunknown ⟨s, value, ⟨hmem, hown⟩, hvalue, hmatch⟩
  · rintro (hdown | hsigned) id
    · exact Or.inl ((hunchanged id).2 (Or.inl hdown))
    · exact Or.inl ((hunchanged id).2 (Or.inr fun s _ h => hsigned s ((hopen s).1 h)))

/-! ## The session of the token -/

/-- Revoking one session, as the rows see it. -/
theorem rows_put_revoke {sessions : Table Session.id} {s : Session} (hs : s ∈ sessions)
    (revokedAt : Date) : (sessions.put (s.revoke revokedAt)).rows =
      sessions.rows.map fun t => if t.id = s.id then t.revoke revokedAt else t := by
  have hold : sessions.get? (s.revoke revokedAt).id = some s := Table.get?_of_mem hs
  rw [Table.rows_put_of_get?_some hold]
  refine List.map_congr_left fun t ht => ?_
  show (if t.id = s.id then s.revoke revokedAt else t) =
    if t.id = s.id then t.revoke revokedAt else t
  by_cases hid : t.id = s.id
  · obtain rfl := Table.eq_of_key_eq ht hs hid
    rfl
  · rw [if_neg hid, if_neg hid]

/-- Revoking one session leaves the others alone. -/
theorem update_unchanged {s : Session} {v : SessionWorld} {id : DbUuid} (hid : s.id ≠ id) :
    ((SessionOp.update s.id now).exec host v).2.sessions.get? id = v.sessions.get? id := by
  cases hdown : v.down with
  | true => rw [exec_of_down hdown, SessionWorld.next_sessions]
  | false =>
    rw [exec_of_up hdown, SessionOp.perform]
    cases hrow : v.sessions.get? s.id with
    | none => rfl
    | some t =>
      have ht : (t.revoke now).id ≠ id := by rwa [Session.id_revoke, Table.key_of_get? hrow]
      exact Table.get?_put_of_ne v.sessions ht

/-- The operations that the loop has performed when it has found nothing. -/
theorem performed_firstMatch {value : String} {sessions : List Session}
    (h : (Task.run (SessionOp.exec host) (firstMatch value sessions) w).1 = .ok none) :
    (Task.run (SessionOp.exec host) (firstMatch value sessions) w).2.performed =
      w.performed + sessions.length := by
  induction sessions generalizing w with
  | nil => rfl
  | cons s sessions ih =>
    rw [run_firstMatch_cons] at h ⊢
    split_ifs at h ⊢ with hdown hmatch
    · exact nomatch h
    rw [ih h, SessionWorld.next_performed, List.length_cons]
    omega

/-- What `revokeToken` does after the query. -/
def revokeFound (userId : String) (session : Option Session) (now : Date) : SessionTask Unit :=
  match session with
  | some session => do
    let _ ← SessionTask.update session.id now
  | none => revokeOpen userId now

theorem after_revokeFound (s : Session) (v : SessionWorld) :
    (Task.run (SessionOp.exec host) (revokeFound userId (some s) now) v).2 =
      ((SessionOp.update s.id now).exec host v).2 := by
  have hupdate : Task.run (SessionOp.exec host) (SessionTask.update s.id now) v =
      (SessionOp.update s.id now).exec host v := rfl
  rw [revokeFound, Task.run_bind, hupdate]
  rcases (SessionOp.update s.id now).exec host v with ⟨_ | _, v'⟩ <;> rfl

/-- **Behind the query**: the loop goes over the open sessions, in a world whose store is
the same. -/
theorem frame_found_iff {value : String} (hvalue : valuePart refreshToken = some value)
    {v : SessionWorld} (hv : v.sessions = w.sessions) :
    (∀ id, (Task.run (SessionOp.exec host) (firstMatch value (openSessions host userId w) >>=
        fun session => revokeFound userId session now) v).2.sessions.get? id =
          w.sessions.get? id ∨ Matching host userId refreshToken w id) ↔
      Recognised host userId refreshToken w ∨ SignedOut host userId w ∨
        ∃ k < (openSessions host userId w).length + 1, v.faults (v.performed + k) = true := by
  have hkeeps : (Task.run (SessionOp.exec host) (firstMatch value (openSessions host userId w))
      v).2.sessions = v.sessions := preserves_firstMatch SessionWorld.next_sessions value _ v
  have hfaults : (Task.run (SessionOp.exec host) (firstMatch value (openSessions host userId w))
      v).2.faults = v.faults := preserves_firstMatch SessionWorld.next_faults value _ v
  rw [Task.run_bind]
  cases hfound : Task.run (SessionOp.exec host) (firstMatch value (openSessions host userId w)) v with
  | mk found u =>
    rw [hfound] at hkeeps hfaults
    have hu : u.sessions = w.sessions := hkeeps.trans hv
    have hresult : (Task.run (SessionOp.exec host) (firstMatch value (openSessions host userId w))
        v).1 = found := congrArg Prod.fst hfound
    cases found with
    | error e =>
      refine iff_of_true (fun id => Or.inl (by rw [hu])) ?_
      by_contra hnone
      rw [not_or, not_or] at hnone
      obtain ⟨hunknown, -, hcalm⟩ := hnone
      push Not at hcalm
      have hno : ∀ s ∈ openSessions host userId w,
          host.bcryptCompare value s.refreshToken = false := fun s hs =>
        Bool.eq_false_iff.2 fun hmatch => hunknown ⟨s, value, mem_openSessions.1 hs, hvalue, hmatch⟩
      have hloop := run_firstMatch_eq_none.2 ⟨hno, fun k hk =>
        Bool.eq_false_iff.2 (hcalm k (Nat.lt_succ_of_lt hk))⟩
      exact nomatch hresult.symm.trans hloop
    | ok session =>
      cases session with
      | some s =>
        obtain ⟨hs, hmatch⟩ := run_firstMatch_eq_some hresult
        have hopen := mem_openSessions.1 hs
        refine iff_of_true (fun id => ?_) (Or.inl ⟨s, value, hopen, hvalue, hmatch⟩)
        by_cases hid : s.id = id
        · subst hid
          exact Or.inr ⟨s, value, Table.get?_of_mem hopen.1, hopen.2.1, hvalue, hmatch⟩
        · refine Or.inl ?_
          show (Task.run (SessionOp.exec host) (revokeFound userId (some s) now) u).2.sessions.get? id =
            w.sessions.get? id
          rw [after_revokeFound, update_unchanged hid, hu]
      | none =>
        obtain ⟨hno, hcalm⟩ := run_firstMatch_eq_none.1 hresult
        have hperformed := performed_firstMatch hresult
        rw [hfound] at hperformed
        have hunknown : ¬ Recognised host userId refreshToken w := by
          rintro ⟨s, value', hopen, hvalue', hmatch⟩
          obtain rfl := Option.some.inj (hvalue.symm.trans hvalue')
          exact nomatch hmatch.symm.trans (hno s (mem_openSessions.2 hopen))
        have hcut : (∃ k < (openSessions host userId w).length + 1, v.faults (v.performed + k) = true) ↔
            u.down = true := by
          rw [SessionWorld.down, hfaults, hperformed]
          constructor
          · rintro ⟨k, hk, hfault⟩
            rcases Nat.lt_succ_iff_lt_or_eq.1 hk with hk | rfl
            · exact nomatch hfault.symm.trans (hcalm k hk)
            · exact hfault
          · exact fun hfault => ⟨_, Nat.lt_succ_self _, hfault⟩
        rw [or_iff_right hunknown, hcut, or_comm, ← frame_revokeOpen_iff hu hunknown]
        exact Iff.rfl

/-- **A logout with a random part** to compare. -/
theorem logoutFrame_iff_of_value {value : String} (hvalue : valuePart refreshToken = some value) :
    LogoutFrame host userId refreshToken now w ↔
      Recognised host userId refreshToken w ∨ SignedOut host userId w ∨
        CutShort host userId refreshToken w := by
  have hrun : afterLogout host userId refreshToken now w =
      (Task.run (SessionOp.exec host) (SessionTask.findMany { userId := userId, revoked := false } >>=
        fun sessions => firstMatch value sessions >>= fun session =>
          revokeFound userId session now) w).2 := by
    rw [afterLogout, revokeToken, Option.bind_some, hvalue]
    rfl
  have hquery : Task.run (SessionOp.exec host)
      (SessionTask.findMany { userId := userId, revoked := false }) w =
      (SessionOp.findMany { userId := userId, revoked := false }).exec host w := rfl
  have hcut : CutShort host userId refreshToken w ↔ w.down = true ∨
      ∃ k < (openSessions host userId w).length + 1, w.next.faults (w.next.performed + k) = true := by
    rw [CutShort, operations, hvalue]
    constructor
    · rintro ⟨k, hk, hfault⟩
      cases k with
      | zero => exact Or.inl hfault
      | succ k =>
        refine Or.inr ⟨k, Nat.lt_of_succ_lt_succ hk, ?_⟩
        rwa [SessionWorld.next_faults, SessionWorld.next_performed, Nat.add_assoc, Nat.add_comm 1 k]
    · rintro (hdown | ⟨k, hk, hfault⟩)
      · exact ⟨0, Nat.succ_pos _, hdown⟩
      · refine ⟨k + 1, Nat.succ_lt_succ hk, ?_⟩
        rwa [SessionWorld.next_faults, SessionWorld.next_performed, Nat.add_assoc, Nat.add_comm 1 k]
          at hfault
  rw [hcut, LogoutFrame, hrun, Task.run_bind, hquery]
  cases hdown : w.down with
  | true =>
    rw [exec_of_down hdown]
    exact iff_of_true (fun id => Or.inl rfl) (Or.inr (Or.inr (Or.inl rfl)))
  | false =>
    rw [exec_of_up hdown, SessionOp.perform, or_iff_right Bool.false_ne_true]
    cases huser : host.uuid? userId with
    | none =>
      have hill : SessionWhere.wellTyped host { userId := userId, revoked := false } = false := by
        simp [SessionWhere.wellTyped, huser]
      rw [hill]
      exact iff_of_true (fun id => Or.inl rfl)
        (Or.inr (Or.inl fun s hopen => by cases huser.symm.trans hopen.2.1))
    | some u =>
      have hwell : SessionWhere.wellTyped host { userId := userId, revoked := false } = true := by
        simp [SessionWhere.wellTyped, huser]
      rw [hwell]
      exact frame_found_iff hvalue (w.next_sessions)

/-- **A logout without one.** -/
theorem logoutFrame_iff_of_no_value (hvalue : valuePart refreshToken = none) :
    LogoutFrame host userId refreshToken now w ↔
      Recognised host userId refreshToken w ∨ SignedOut host userId w ∨
        CutShort host userId refreshToken w := by
  have hrun : afterLogout host userId refreshToken now w =
      (Task.run (SessionOp.exec host) (revokeOpen userId now) w).2 := by
    rw [afterLogout, revokeToken, Option.bind_some, hvalue]
    rfl
  have hunknown : ¬ Recognised host userId refreshToken w := by
    rintro ⟨s, value, -, hsome, -⟩
    exact nomatch hvalue.symm.trans hsome
  have hcut : CutShort host userId refreshToken w ↔ w.down = true := by
    simp [CutShort, operations, hvalue, SessionWorld.down]
  rw [or_iff_right hunknown, hcut, or_comm, ← frame_revokeOpen_iff rfl hunknown, LogoutFrame, hrun]

/-- **The frame of a logout** holds exactly when the token matches an unrevoked session
of the user, or there is no such session, or an operation fails before they are
revoked. -/
theorem logoutFrame_iff (host : SessionHost) (userId refreshToken : String) (now : Date)
    (w : SessionWorld) :
    LogoutFrame host userId refreshToken now w ↔
      Recognised host userId refreshToken w ∨ SignedOut host userId w ∨
        CutShort host userId refreshToken w := by
  cases hvalue : valuePart refreshToken with
  | some value => exact logoutFrame_iff_of_value hvalue
  | none => exact logoutFrame_iff_of_no_value hvalue

/-! ## A token that was never issued -/

/-- A user of the runs on fixed inputs. -/
def hopper : DbUuid :=
  ⟨"00000000-0000-4000-8000-000000000011", by decide +kernel, by decide +kernel⟩

/-- A host whose hashes are the texts themselves. -/
def plainSessionHost : SessionHost where
  uuid? text := if text = hopper.text then some hopper else none
  bcryptHash value _ := value
  bcryptCompare value hash := value == hash

/-- The session of a user. -/
def hoppersSession : Session where
  id := hopper
  userId := hopper
  refreshToken := "issued"
  userAgent := none
  ipAddress := none
  expiresAt := 604800000
  createdAt := 0
  revokedAt := none

/-- A store with that session, where nothing fails. -/
def hoppersWorld : SessionWorld where
  sessions := (Table.empty Session.id).put hoppersSession
  users := fun id => if id = hopper then some ⟨hopper, "hopper@example.com", .active, []⟩ else none
  clock := 0
  ids := fun _ => hopper
  salts := fun _ => ""
  faults := fun _ => false
  performed := 0

/-- **A forged token** logs the user out everywhere. -/
theorem not_logoutFrame :
    ¬ ∀ (host : SessionHost) (userId refreshToken : String) (now : Date) (w : SessionWorld),
      refreshToken ≠ "" → LogoutFrame host userId refreshToken now w := by
  intro h
  have hvalue : valuePart (hopper.text ++ ".forged") = some "forged" := by decide +kernel
  have hframe := (logoutFrame_iff_of_value hvalue).1 (h plainSessionHost hopper.text
    (hopper.text ++ ".forged") 1 hoppersWorld (by decide +kernel))
  have huser : plainSessionHost.uuid? hopper.text = some hopper := by simp [plainSessionHost]
  have hmem : hoppersSession ∈ hoppersWorld.sessions := Table.mem_put_self _ _
  rcases hframe with ⟨s, value, ⟨hs, -⟩, hsome, hmatch⟩ | hsigned | ⟨k, -, hfault⟩
  · obtain rfl := Option.some.inj (hvalue.symm.trans hsome)
    obtain rfl : s = hoppersSession := List.mem_singleton.1 hs
    exact absurd hmatch (by decide +kernel)
  · exact hsigned hoppersSession ⟨hmem, huser, rfl⟩
  · exact nomatch hfault

end EnterpriseSystem.Authentication
