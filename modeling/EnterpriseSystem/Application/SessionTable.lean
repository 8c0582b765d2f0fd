import EnterpriseSystem.Application.RefreshToken

/-!
# Sessions in a table

A store that keeps what the port for sessions promises: a table of sessions with a unique index
on the refresh token, whose operations fail when a script says so.

* `SessionTable`, `SessionPort.perform` — the table, and the operations on it.
* `tableRepository_lawful` — it keeps the promises.
-/

namespace EnterpriseSystem.Application

open Identity Relational

/-- The sessions, the clock, and for the number of an operation the id generated there and
whether it fails. -/
structure SessionTable where
  sessions : Table SessionSnapshot.id
  /-- The unique index. -/
  tokens : (sessions.rows.map SessionSnapshot.refreshToken).Nodup
  clock : Date
  ids : ℕ → String
  faults : ℕ → Bool
  performed : ℕ

namespace SessionTable

variable (s : SessionTable)

/-- The table after one more operation. -/
def next : SessionTable := { s with performed := s.performed + 1 }

/-- With some of the rows revoked. -/
def revokeWhere (p : SessionSnapshot → Bool) : SessionTable :=
  { s.next with
    sessions := s.sessions.update p (·.revoke s.clock) (·.id_revoke s.clock)
    tokens := by
      have hsame : ((s.sessions.update p (·.revoke s.clock) (·.id_revoke s.clock)).rows.map
          SessionSnapshot.refreshToken) = s.sessions.rows.map SessionSnapshot.refreshToken := by
        rw [Table.rows_update, List.map_map]
        refine List.map_congr_left fun x _ => ?_
        show (if p x then x.revoke s.clock else x).refreshToken = x.refreshToken
        split <;> rfl
      rw [hsame]
      exact s.tokens }

/-- The session that `create` makes. -/
def row (session : NewSession) : SessionSnapshot where
  id := s.ids s.performed
  userId := session.userId
  refreshToken := session.refreshToken
  userAgent := session.userAgent
  ipAddress := session.ipAddress
  expiresAt := session.expiresAt
  createdAt := s.clock
  revokedAt := none

/-- The indexes admit the row. -/
def Admits (x : SessionSnapshot) : Prop :=
  s.sessions.get? x.id = none ∧ x.refreshToken ∉ s.sessions.rows.map SessionSnapshot.refreshToken

instance (x : SessionSnapshot) : Decidable (s.Admits x) := by
  unfold Admits
  infer_instance

/-- With a new row. -/
def insert (x : SessionSnapshot) (h : s.Admits x) : SessionTable :=
  { s.next with
    sessions := s.sessions.put x
    tokens := by
      rw [Table.rows_put_of_get?_none h.1, List.map_append, List.nodup_append]
      refine ⟨s.tokens, by simp, ?_⟩
      rintro _ htoken _ hlast rfl
      rw [List.map_singleton, List.mem_singleton] at hlast
      exact h.2 (hlast ▸ htoken) }

end SessionTable

/-- An operation that does not fail on its own account. -/
def SessionPort.perform : (o : SessionPort) → SessionTable → Except Thrown o.Ans × SessionTable
  | .findByRefreshToken refreshToken, s =>
    (.ok (s.sessions.rows.find? fun x => x.refreshToken == refreshToken), s.next)
  | .create session, s =>
    if h : s.Admits (s.row session) then (.ok (s.row session), s.insert (s.row session) h)
    else (.error (.error "Unique constraint failed"), s.next)
  | .revoke id, s => (.ok (), s.revokeWhere fun x => x.id == id)
  | .revokeAllForUser userId, s =>
    (.ok (s.sessions.rows.countP fun x => x.userId == userId && x.revokedAt.isNone),
      s.revokeWhere fun x => x.userId == userId && x.revokedAt.isNone)

/-- The repository over the table. -/
def tableRepository : SessionRepository SessionTable where
  exec o s := if s.faults s.performed then (.error outage, s.next) else o.perform s
  get? s id := s.sessions.get? id

theorem tableRepository_exec (o : SessionPort) (s : SessionTable) :
    tableRepository.exec o s =
      if s.faults s.performed then (.error outage, s.next) else o.perform s := rfl

/-- An operation that has returned is one that did not fail on its own account. -/
theorem tableRepository_exec_ok {o : SessionPort} {s s' : SessionTable} {a : o.Ans}
    (h : tableRepository.exec o s = (.ok a, s')) : o.perform s = (.ok a, s') := by
  cases hdown : s.faults s.performed with
  | true =>
    rw [tableRepository_exec, hdown] at h
    exact nomatch h
  | false =>
    rw [tableRepository_exec, hdown] at h
    exact h

/-- Revoking the rows of one kind, as a lookup sees it. -/
theorem get?_revokeWhere (s : SessionTable) (p : SessionSnapshot → Bool) (id : String) :
    (s.revokeWhere p).sessions.get? id =
      (s.sessions.get? id).map fun x => if p x then x.revoke s.clock else x :=
  Table.get?_update s.sessions p (·.revoke s.clock) (·.id_revoke s.clock) id

/-- **The table keeps the promises** of the port. -/
theorem tableRepository_lawful : tableRepository.Lawful where
  key s id x h := Table.key_of_get? h
  unique s x y hx hy htoken :=
    List.inj_on_of_nodup_map s.tokens (Table.mem_of_get? hx) (Table.mem_of_get? hy) htoken
  find_keeps s refreshToken := by
    rw [tableRepository_exec]
    split <;> rfl
  find_some s refreshToken x s' h := by
    have hfind := congrArg Prod.fst (tableRepository_exec_ok h)
    have hsome : s.sessions.rows.find? (fun x => x.refreshToken == refreshToken) = some x :=
      Except.ok.inj hfind
    exact ⟨Table.get?_of_mem (List.mem_of_find?_eq_some hsome), by simpa using List.find?_some hsome⟩
  find_none s refreshToken s' h x hx := by
    have hfind := congrArg Prod.fst (tableRepository_exec_ok h)
    have hnone : s.sessions.rows.find? (fun x => x.refreshToken == refreshToken) = none :=
      Except.ok.inj hfind
    simpa using List.find?_eq_none.1 hnone x (Table.mem_of_get? hx)
  create_ok s session x s' h := by
    have hperform := tableRepository_exec_ok h
    rw [SessionPort.perform] at hperform
    split_ifs at hperform with hadmits
    · obtain ⟨hx, rfl⟩ := Prod.mk.inj hperform
      obtain rfl := Except.ok.inj hx
      refine ⟨hadmits.1, funext fun id => ?_, rfl, rfl, rfl, rfl⟩
      show (s.sessions.put (s.row session)).get? id = _
      rw [Table.get?_put, Function.update_apply]
      by_cases hid : (s.row session).id = id
      · rw [if_pos hid, if_pos hid.symm]
      · rw [if_neg hid, if_neg (Ne.symm hid)]
        rfl
    · exact nomatch hperform
  revoke_ok s id s' h := by
    obtain ⟨-, rfl⟩ := Prod.mk.inj (tableRepository_exec_ok h)
    refine ⟨s.clock, funext fun id' => ?_⟩
    refine (get?_revokeWhere s _ id').trans ?_
    rw [Function.update_apply]
    by_cases hid : id' = id
    · subst hid
      rw [if_pos rfl]
      show (s.sessions.get? id').map _ = (s.sessions.get? id').map _
      cases hrow : s.sessions.get? id' with
      | none => rfl
      | some x => simp [Table.key_of_get? hrow]
    · rw [if_neg hid]
      show (s.sessions.get? id').map _ = s.sessions.get? id'
      cases hrow : s.sessions.get? id' with
      | none => rfl
      | some x => simp [Table.key_of_get? hrow, hid]
  revokeAll_ok s userId n s' h := by
    obtain ⟨-, rfl⟩ := Prod.mk.inj (tableRepository_exec_ok h)
    refine ⟨s.clock, funext fun id => ?_⟩
    refine (get?_revokeWhere s _ id).trans ?_
    show (s.sessions.get? id).map _ = (s.sessions.get? id).map _
    congr 1
    funext x
    simp
  error_keeps o s e s' h := by
    cases hdown : s.faults s.performed with
    | true =>
      rw [tableRepository_exec, hdown] at h
      rw [← (Prod.mk.inj h).2]
      rfl
    | false =>
      rw [tableRepository_exec, hdown] at h
      cases o with
      | create session =>
        have hperform : SessionPort.perform (.create session) s = (.error e, s') := h
        rw [SessionPort.perform] at hperform
        split_ifs at hperform with hadmits
        · exact nomatch hperform
        · rw [← (Prod.mk.inj hperform).2]
          rfl
      | findByRefreshToken refreshToken => exact nomatch h
      | revoke id => exact nomatch h
      | revokeAllForUser userId => exact nomatch h

end EnterpriseSystem.Application
