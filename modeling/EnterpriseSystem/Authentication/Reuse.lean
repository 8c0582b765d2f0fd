import EnterpriseSystem.Authentication.Cleanup
import EnterpriseSystem.Authentication.Rotation

/-!
# When reuse is detected

`AuthService.refreshTokens` revokes all sessions of a user when a refresh token matches none of
those that are active.

* `fires_iff` — when that happens.
* `Reused` — the token has been issued along a history, and its session is revoked.
* `call_issues`, `exists_origin` — a call makes at most one session, and then it returns the token
  of it; so every session has come out of a call.
* `unrecognised_of_reused` — a token that is used again matches no active session.
* `detectsReuse_iff_of_fresh` — for which tokens reuse is detected exactly.
-/

namespace EnterpriseSystem.Authentication

open Identity Relational Concurrency Reactive AuthService

/-! ## When all sessions are revoked -/

section

variable {host : SessionHost} {config : AuthConfig} {refreshToken : String}
  {userAgent ipAddress : Option String} {m : AuthService.Rotation} {w : SessionWorld}

/-- The sessions with those of a user revoked. -/
def revokedAll (host : SessionHost) (userId : String) (now : Date) (sessions : Table Session.id) :
    Table Session.id :=
  sessions.update (SessionWhere.selects host { userId := userId, revoked := false })
    (Session.revoke now) (Session.id_revoke now)

/-- The call takes the token for one that is used again: it throws so, having revoked all
sessions of the user in front. -/
def Fires (host : SessionHost) (config : AuthConfig) (refreshToken : String)
    (userAgent ipAddress : Option String) (m : AuthService.Rotation) (w : SessionWorld) : Prop :=
  (afterRefresh host config refreshToken userAgent ipAddress m w).1 = .error tokenRevoked ∧
    ∃ userId, userPart refreshToken = some userId ∧
      (afterRefresh host config refreshToken userAgent ipAddress m w).2.sessions =
        revokedAll host userId m.revoked w.sessions

/-- A token of two parts with the id of a user in front that matches no active session. -/
def Unrecognised (host : SessionHost) (refreshToken : String) (now : Date) (w : SessionWorld)
    (userId : String) : Prop :=
  userPart refreshToken = some userId ∧ (∃ user, host.uuid? userId = some user) ∧
    ∃ value, valuePart refreshToken = some value ∧
      ∀ s ∈ activeSessions host userId now w, matchesHash host value s = false

/-- No operation fails: the query, the comparisons, the update. -/
def CalmThroughout (host : SessionHost) (userId : String) (now : Date) (w : SessionWorld) : Prop :=
  ∀ k < (activeSessions host userId now w).length + 2, w.faults (w.performed + k) = false

/-- What the loop throws is that a comparison fails. -/
theorem error_firstMatch {value : String} {sessions : List Session} {e : AuthError}
    (h : (Task.run (SessionOp.exec host) (firstMatch value sessions) w).1 = .error e) :
    e = unreachable := by
  induction sessions generalizing w with
  | nil => exact nomatch h
  | cons s sessions ih =>
    rw [run_firstMatch_turn] at h
    split_ifs at h
    · exact (Except.error.inj h).symm
    · exact ih h

/-- **Refusing all**: the sessions are revoked, unless the update fails. -/
theorem run_refuseAll {userId : String} {user : DbUuid} (huser : host.uuid? userId = some user)
    (w : SessionWorld) :
    Task.run (SessionOp.exec host) (refuseAll userId m) w =
      if w.down then (.error unreachable, w.next)
      else (.error tokenRevoked, w.put (revokedAll host userId m.revoked w.sessions)) := by
  have hwell : SessionWhere.wellTyped host { userId := userId, revoked := false } = true :=
    wellTyped_iff.2 ⟨user, huser⟩
  have hupdate : Task.run (SessionOp.exec host)
      (SessionTask.updateMany { userId := userId, revoked := false } m.revoked) w =
      (SessionOp.updateMany { userId := userId, revoked := false } m.revoked).exec host w := rfl
  rw [refuseAll]
  cases hdown : w.down with
  | true =>
    rw [exec_of_down hdown] at hupdate
    rw [Task.run_bind_of_error _ hupdate, if_pos rfl]
  | false =>
    rw [exec_of_up hdown, SessionOp.perform, if_pos hwell] at hupdate
    rw [Task.run_bind_of_ok _ hupdate, if_neg Bool.false_ne_true]
    rfl

theorem tokenInvalid_ne : tokenInvalid ≠ tokenRevoked := by decide

theorem unreachable_ne : unreachable ≠ tokenRevoked := by decide

/-- Behind the query: the loop, and what follows it. -/
theorem fires_behindQuery_iff {userId value : String} {user : DbUuid}
    (huser : host.uuid? userId = some user) (sessions : List Session)
    (hsessions : ∀ s ∈ sessions, s ∈ w.sessions) :
    (Task.run (SessionOp.exec host) (firstMatch value sessions >>=
        behindLoop config userId userAgent ipAddress m) w).1 = .error tokenRevoked ↔
      (∀ s ∈ sessions, matchesHash host value s = false) ∧
        ∀ k < sessions.length + 1, w.faults (w.performed + k) = false := by
  have hfaults : (Task.run (SessionOp.exec host) (firstMatch value sessions) w).2.faults = w.faults :=
    preserves_firstMatch SessionWorld.next_faults value sessions w
  have hkeeps : (Task.run (SessionOp.exec host) (firstMatch value sessions) w).2.sessions =
      w.sessions := preserves_firstMatch SessionWorld.next_sessions value sessions w
  have hnone : (Task.run (SessionOp.exec host) (firstMatch value sessions) w).1 = .ok none ↔ _ :=
    run_firstMatch_eq_none
  rcases hloop : Task.run (SessionOp.exec host) (firstMatch value sessions) w with ⟨r, u⟩
  rw [hloop] at hfaults hkeeps hnone
  rcases r with e | found
  · rw [Task.run_bind_of_error _ hloop]
    have he : e = unreachable := error_firstMatch (congrArg Prod.fst hloop)
    refine iff_of_false (fun h => ?_) fun h => ?_
    · exact unreachable_ne (he.symm.trans (Except.error.inj h))
    · cases hnone.2 ⟨h.1, fun k hk => h.2 k (Nat.lt_succ_of_lt hk)⟩
  · rw [Task.run_bind_of_ok _ hloop]
    cases found with
    | some s =>
      obtain ⟨hs, hmatch⟩ := run_firstMatch_eq_some (congrArg Prod.fst hloop)
      refine iff_of_false (fun h => ?_) fun h => by cases hmatch.symm.trans (h.1 s hs)
      have hmem : s ∈ u.sessions := hkeeps ▸ hsessions s hs
      have hrotated := rotated host config userId userAgent ipAddress m hmem
      rw [behindLoop] at h
      generalize Task.run (SessionOp.exec host) (rotateFound config userId userAgent ipAddress m s) u
        = r at hrotated h
      cases hrotated with
      | kept _ => cases h
      | lost _ he _ => exact he (Except.error.inj h)
      | issued _ _ _ _ _ _ _ => cases h
    | none =>
      obtain ⟨hno, hcalm⟩ := hnone.1 rfl
      have hperformed := performed_firstMatch (congrArg Prod.fst hloop)
      rw [hloop] at hperformed
      have hdown : u.down = w.faults (w.performed + sessions.length) := by
        rw [SessionWorld.down, hfaults, hperformed]
      rw [behindLoop, run_refuseAll huser]
      cases hlast : u.down with
      | true =>
        refine iff_of_false (fun h => unreachable_ne (Except.error.inj h)) fun h => ?_
        cases (hlast.symm.trans hdown).trans (h.2 _ (Nat.lt_succ_self _))
      | false =>
        refine iff_of_true rfl ⟨hno, fun k hk => ?_⟩
        rcases Nat.lt_succ_iff_lt_or_eq.1 hk with hk | rfl
        · exact hcalm k hk
        · exact hdown.symm.trans hlast

/-- When the call says that the token is used again. -/
theorem throws_iff :
    (afterRefresh host config refreshToken userAgent ipAddress m w).1 = .error tokenRevoked ↔
      ∃ userId, Unrecognised host refreshToken m.queried w userId ∧
        CalmThroughout host userId m.queried w := by
  rw [afterRefresh]
  cases hu : userPart refreshToken with
  | none =>
    rw [refreshTokens, hu]
    refine iff_of_false (fun h => tokenInvalid_ne ?_) ?_
    · cases valuePart refreshToken <;> exact Except.error.inj h
    rintro ⟨userId, ⟨h, -⟩, -⟩
    cases hu.symm.trans h
  | some userId =>
    cases hv : valuePart refreshToken with
    | none =>
      rw [refreshTokens, hu, hv]
      refine iff_of_false (fun h => tokenInvalid_ne (Except.error.inj h)) ?_
      rintro ⟨_, ⟨-, -, _, h, -⟩, -⟩
      cases hv.symm.trans h
    | some value =>
      rw [refreshTokens_eq hu hv]
      have honly : (∃ userId, Unrecognised host refreshToken m.queried w userId ∧
          CalmThroughout host userId m.queried w) ↔
          (∃ user, host.uuid? userId = some user) ∧
            (∀ s ∈ activeSessions host userId m.queried w, matchesHash host value s = false) ∧
            CalmThroughout host userId m.queried w := by
        constructor
        · rintro ⟨_, ⟨hu', huser, _, hv', hno⟩, hcalm⟩
          obtain rfl := Option.some.inj (hu.symm.trans hu')
          obtain rfl := Option.some.inj (hv.symm.trans hv')
          exact ⟨huser, hno, hcalm⟩
        · rintro ⟨huser, hno, hcalm⟩
          exact ⟨userId, ⟨hu, huser, value, hv, hno⟩, hcalm⟩
      rw [honly]
      cases huser : host.uuid? userId with
      | none =>
        refine iff_of_false (fun h => ?_) (by simp)
        have hill : (activeQuery userId m.queried).wellTyped host = false := by
          simp [activeQuery, SessionWhere.wellTyped, huser]
        have hquery := run_findMany host (activeQuery userId m.queried) w
        simp only [hill, Bool.false_eq_true, if_false] at hquery
        split_ifs at hquery
        · rw [Task.run_bind_of_error _ hquery] at h
          cases h
        · rw [Task.run_bind_of_error _ hquery] at h
          cases h
      | some user =>
        have hquery := run_findMany_active huser m.queried w
        by_cases hdown : w.down = true
        · rw [if_pos hdown] at hquery
          rw [Task.run_bind_of_error _ hquery]
          refine iff_of_false (fun h => unreachable_ne (Except.error.inj h)) fun h => ?_
          cases hdown.symm.trans (h.2.2 0 (Nat.succ_pos _))
        · rw [if_neg hdown] at hquery
          have hmem : ∀ s ∈ activeSessions host userId m.queried w, s ∈ w.next.sessions :=
            fun s hs => (mem_activeSessions.1 hs).1.1
          rw [Task.run_bind_of_ok _ hquery, fires_behindQuery_iff huser _ hmem,
            and_iff_right (⟨user, rfl⟩ : ∃ u, some user = some u)]
          refine and_congr_right fun _ => ⟨fun h k hk => ?_, fun h k hk => ?_⟩
          · cases k with
            | zero => exact Bool.eq_false_iff.2 hdown
            | succ k =>
              have hlater := h k (Nat.lt_of_succ_lt_succ hk)
              rwa [SessionWorld.next_faults, SessionWorld.next_performed, Nat.add_assoc,
                Nat.add_comm 1 k] at hlater
          · rw [SessionWorld.next_faults, SessionWorld.next_performed, Nat.add_assoc, Nat.add_comm 1 k]
            exact h (k + 1) (Nat.succ_lt_succ hk)

/-- Then all sessions of the user are revoked. -/
theorem sessions_of_unrecognised {userId : String} (h : Unrecognised host refreshToken m.queried w userId)
    (hcalm : CalmThroughout host userId m.queried w) :
    (afterRefresh host config refreshToken userAgent ipAddress m w).2.sessions =
      revokedAll host userId m.revoked w.sessions := by
  obtain ⟨hu, ⟨user, huser⟩, value, hv, hno⟩ := h
  have hquery := run_findMany_active huser m.queried w
  have hup : w.down = false := hcalm 0 (Nat.succ_pos _)
  rw [hup, if_neg nofun] at hquery
  have hlater : ∀ k < (activeSessions host userId m.queried w).length + 1,
      w.next.faults (w.next.performed + k) = false := fun k hk => by
    rw [SessionWorld.next_faults, SessionWorld.next_performed, Nat.add_assoc, Nat.add_comm 1 k]
    exact hcalm (k + 1) (Nat.succ_lt_succ hk)
  have hnone : (Task.run (SessionOp.exec host)
      (firstMatch value (activeSessions host userId m.queried w)) w.next).1 = .ok none :=
    run_firstMatch_eq_none.2 ⟨hno, fun k hk => hlater k (Nat.lt_succ_of_lt hk)⟩
  have hkeeps : (Task.run (SessionOp.exec host)
      (firstMatch value (activeSessions host userId m.queried w)) w.next).2.sessions = w.sessions :=
    preserves_firstMatch SessionWorld.next_sessions value _ w.next
  have hfaults : (Task.run (SessionOp.exec host)
      (firstMatch value (activeSessions host userId m.queried w)) w.next).2.faults = w.next.faults :=
    preserves_firstMatch SessionWorld.next_faults value _ w.next
  have hperformed := performed_firstMatch hnone
  rw [afterRefresh, refreshTokens_eq hu hv, Task.run_bind_of_ok _ hquery]
  rcases hloop : Task.run (SessionOp.exec host)
    (firstMatch value (activeSessions host userId m.queried w)) w.next with ⟨r, u⟩
  rw [hloop] at hnone hkeeps hfaults hperformed
  obtain rfl : r = .ok none := hnone
  have hdown : u.down = false := by
    rw [SessionWorld.down, hfaults, hperformed]
    exact hlater _ (Nat.lt_succ_self _)
  rw [Task.run_bind_of_ok _ hloop, behindLoop, run_refuseAll huser, hdown, if_neg nofun, hkeeps]
  rfl

/-- **The call fires** exactly when the token has two parts, the first one the id of a user and
the second one matching none of their active sessions, and no operation fails. -/
theorem fires_iff :
    Fires host config refreshToken userAgent ipAddress m w ↔
      ∃ userId, Unrecognised host refreshToken m.queried w userId ∧
        CalmThroughout host userId m.queried w := by
  constructor
  · exact fun h => throws_iff.1 h.1
  · rintro ⟨userId, hunknown, hcalm⟩
    exact ⟨throws_iff.2 ⟨userId, hunknown, hcalm⟩, userId, hunknown.1,
      sessions_of_unrecognised hunknown hcalm⟩

end

/-! ## Where sessions come from -/

/-- What no operation but `create` changes of a session. -/
def Session.label (s : Session) : DbUuid × DbUuid × String := (s.id, s.userId, s.refreshToken)

/-- The sessions, as far as they never change. -/
def labels (sessions : Table Session.id) : List (DbUuid × DbUuid × String) :=
  sessions.rows.map Session.label

section

variable {host : SessionHost} {config : AuthConfig} {w : SessionWorld}

theorem mem_labels {sessions : Table Session.id} {s : Session} (hs : s ∈ sessions) :
    s.label ∈ labels sessions :=
  List.mem_map_of_mem hs

theorem labels_update (sessions : Table Session.id) (p : Session → Bool) (revokedAt : Date) :
    labels (sessions.update p (Session.revoke revokedAt) (Session.id_revoke revokedAt)) =
      labels sessions := by
  rw [labels, Table.rows_update, List.map_map]
  refine List.map_congr_left fun s _ => ?_
  show (if p s then s.revoke revokedAt else s).label = s.label
  split <;> rfl

theorem labels_put_revoke {sessions : Table Session.id} {s : Session} (hs : s ∈ sessions)
    (revokedAt : Date) : labels (sessions.put (s.revoke revokedAt)) = labels sessions := by
  rw [labels, rows_put_revoke hs, List.map_map]
  refine List.map_congr_left fun t _ => ?_
  show (if t.id = s.id then t.revoke revokedAt else t).label = t.label
  split <;> rfl

theorem labels_put_new {sessions : Table Session.id} {s : Session}
    (hnew : sessions.get? s.id = none) : labels (sessions.put s) = labels sessions ++ [s.label] := by
  rw [labels, Table.rows_put_of_get?_none hnew, List.map_append]
  rfl

/-- An operation that neither makes nor deletes sessions. -/
def SessionOp.Keeps : SessionOp → Prop
  | .create _ => False
  | .deleteMany _ => False
  | _ => True

/-- **Such an operation** leaves the labels alone. -/
theorem preserves_labels {o : SessionOp} (ho : o.Keeps) :
    Task.Preserves (SessionOp.exec host) (fun w => labels w.sessions)
      (Task.await o : SessionTask o.Ans) := by
  intro w
  show labels (o.exec host w).2.sessions = labels w.sessions
  cases hdown : w.down with
  | true => rw [exec_of_down hdown, SessionWorld.next_sessions]
  | false =>
    rw [exec_of_up hdown]
    cases o with
    | create data => exact ho.elim
    | deleteMany query => exact ho.elim
    | update id revokedAt =>
      rw [SessionOp.perform]
      cases hrow : w.sessions.get? id with
      | none => rfl
      | some s => exact labels_put_revoke (Table.mem_of_get? hrow) revokedAt
    | updateMany query revokedAt =>
      rw [SessionOp.perform]
      split_ifs
      · exact labels_update _ _ _
      · rfl
    | findMany query => rw [SessionOp.perform]; split_ifs <;> rfl
    | findFirst query => rw [SessionOp.perform]; split_ifs <;> rfl
    | findUser id => rw [SessionOp.perform]; cases host.uuid? id <;> rfl
    | bcryptHash value => rfl
    | bcryptCompare value hash => rfl

/-- What a call for a pair can come to: it returns none and the labels are as they were, or it
returns the token of the one session that it makes. -/
inductive Labelled (host : SessionHost) (d : Draw) (w : SessionWorld) :
    Except AuthError TokenPair × SessionWorld → Prop where
  | kept {r : Except AuthError TokenPair} {w' : SessionWorld} :
    labels w'.sessions = labels w.sessions → (∀ pair, r ≠ .ok pair) → Labelled host d w (r, w')
  | made {pair : TokenPair} {userId : String} {row : Session} {w' : SessionWorld} :
    pair.refreshToken = userId ++ "." ++ d.refreshTokenValue →
    host.uuid? userId = some row.userId →
    (∃ k, row.refreshToken = host.bcryptHash d.refreshTokenValue (w.salts k)) →
    labels w'.sessions = labels w.sessions ++ [row.label] → Labelled host d w (.ok pair, w')

theorem labelled_generateTokenPair (config : AuthConfig) (userId email : String)
    (roles : List String) (userAgent ipAddress : Option String) (d : Draw) (w : SessionWorld) :
    Labelled host d w (Task.run (SessionOp.exec host)
      (generateTokenPair config userId email roles userAgent ipAddress d) w) := by
  have hpair := generated host config userId email roles userAgent ipAddress d w
  generalize Task.run (SessionOp.exec host)
    (generateTokenPair config userId email roles userAgent ipAddress d) w = r at hpair
  cases hpair with
  | failed hkeeps => exact .kept (congrArg labels hkeeps) nofun
  | issued hfresh hmade =>
    refine .made rfl hfresh.owner hfresh.hash ?_
    rw [hmade, labels_put_new hfresh.newKey]

theorem Labelled.of_same {d : Draw} {u : SessionWorld}
    {r : Except AuthError TokenPair × SessionWorld} (h : Labelled host d u r)
    (hsessions : u.sessions = w.sessions) (hsalts : u.salts = w.salts) : Labelled host d w r := by
  cases h with
  | kept hkeeps hnone => exact .kept (hsessions ▸ hkeeps) hnone
  | made htoken howner hhash hmade => exact .made htoken howner (hsalts ▸ hhash) (hsessions ▸ hmade)

theorem labelled_rotateFound (config : AuthConfig) (userId : String)
    (userAgent ipAddress : Option String) (m : AuthService.Rotation) {s : Session}
    (hs : s ∈ w.sessions) :
    Labelled host m.draw w (Task.run (SessionOp.exec host)
      (rotateFound config userId userAgent ipAddress m s) w) := by
  have hrotated := rotated host config userId userAgent ipAddress m hs
  generalize Task.run (SessionOp.exec host) (rotateFound config userId userAgent ipAddress m s) w
    = r at hrotated
  cases hrotated with
  | kept _ => exact .kept rfl nofun
  | lost _ _ hlost =>
    refine .kept ?_ nofun
    rw [hlost, labels_put_revoke hs]
  | issued _ hv _ hsalts hfresh hmade htoken =>
    refine .made htoken hfresh.owner (hsalts ▸ hfresh.hash) ?_
    rw [hmade, labels_put_new hfresh.newKey, hv, labels_put_revoke hs]

theorem labelled_refuseAll (userId : String) (m : AuthService.Rotation) (d : Draw)
    (w : SessionWorld) :
    Labelled host d w (Task.run (SessionOp.exec host) (refuseAll userId m) w) := by
  have hkeeps : Task.Preserves (SessionOp.exec host) (fun w => labels w.sessions)
      (refuseAll userId m) :=
    .bind (preserves_labels (o := .updateMany _ m.revoked) trivial) fun _ => .throw _
  have hlabels := hkeeps w
  rcases hrun : Task.run (SessionOp.exec host) (refuseAll userId m) w with ⟨r, w'⟩
  rw [hrun] at hlabels
  refine .kept hlabels ?_
  rintro pair rfl
  obtain ⟨_, _, -, hthrow⟩ := (Task.run_bind_eq_ok (SessionOp.exec host)).1 hrun
  exact nomatch hthrow

/-- **A refresh** makes the session of the pair that it returns, and no other. -/
theorem labelled_refreshTokens (config : AuthConfig) (refreshToken : String)
    (userAgent ipAddress : Option String) (m : AuthService.Rotation) (w : SessionWorld) :
    Labelled host m.draw w (afterRefresh host config refreshToken userAgent ipAddress m w) := by
  rw [afterRefresh]
  cases hu : userPart refreshToken with
  | none =>
    rw [refreshTokens, hu]
    exact .kept rfl (by simp)
  | some userId =>
    cases hv : valuePart refreshToken with
    | none =>
      rw [refreshTokens, hu, hv]
      exact .kept rfl (by simp)
    | some value =>
      rw [refreshTokens_eq hu hv]
      rcases hquery : Task.run (SessionOp.exec host)
        (SessionTask.findMany (activeQuery userId m.queried)) w with ⟨_ | sessions, v⟩
      · rw [Task.run_bind_of_error _ hquery]
        rw [run_findMany] at hquery
        obtain rfl := (Prod.mk.inj hquery).2
        exact .kept rfl (by simp)
      · rw [Task.run_bind_of_ok _ hquery]
        rw [run_findMany] at hquery
        obtain ⟨hsessions, rfl⟩ := Prod.mk.inj hquery
        have hkeeps : (Task.run (SessionOp.exec host) (firstMatch value sessions) w.next).2.sessions =
            w.sessions := preserves_firstMatch SessionWorld.next_sessions value sessions w.next
        have hsalts : (Task.run (SessionOp.exec host) (firstMatch value sessions) w.next).2.salts =
            w.salts := preserves_firstMatch (fun _ => rfl) value sessions w.next
        rcases hloop : Task.run (SessionOp.exec host) (firstMatch value sessions) w.next
          with ⟨_ | _ | s, u⟩ <;> rw [hloop] at hkeeps hsalts
        · rw [Task.run_bind_of_error _ hloop]
          exact .kept (congrArg labels hkeeps) (by simp)
        · rw [Task.run_bind_of_ok _ hloop]
          exact (labelled_refuseAll userId m m.draw u).of_same hkeeps hsalts
        · rw [Task.run_bind_of_ok _ hloop]
          have hs : s ∈ u.sessions := by
            have hfound := (run_firstMatch_eq_some (congrArg Prod.fst hloop)).1
            split_ifs at hsessions
            rw [← Except.ok.inj hsessions] at hfound
            rw [hkeeps]
            exact List.mem_of_mem_filter hfound
          exact (labelled_rotateFound config userId userAgent ipAddress m hs).of_same hkeeps hsalts

end

/-! ### Along a history -/

/-- What a call draws at random for a new pair. -/
def AuthCall.draw? : AuthCall → Option Draw
  | generateTokenPair _ _ _ _ _ draw => some draw
  | refreshTokens _ _ _ rotation => some rotation.draw
  | _ => none

/-- The call returns the token of the one session that it makes. -/
structure IssuedBy (host : SessionHost) (config : AuthConfig) (sessions : Table Session.id)
    (entry : AuthCall × Surroundings) (d : Draw) (userId : String) (row : Session) : Prop where
  draw : entry.1.draw? = some d
  answer : ∃ pair, (authMachine host config sessions entry).1 = .ok (.pair pair) ∧
    pair.refreshToken = userId ++ "." ++ d.refreshTokenValue
  owner : host.uuid? userId = some row.userId
  hash : ∃ k, row.refreshToken = host.bcryptHash d.refreshTokenValue (entry.2.salts k)
  made : labels (authMachine host config sessions entry).2 = labels sessions ++ [row.label]

/-- The call returns no token, and makes no session. -/
def IssuesNone (host : SessionHost) (config : AuthConfig) (sessions : Table Session.id)
    (entry : AuthCall × Surroundings) : Prop :=
  labels (authMachine host config sessions entry).2 = labels sessions ∧
    ∀ pair, (authMachine host config sessions entry).1 ≠ .ok (.pair pair)

section

variable {host : SessionHost} {config : AuthConfig} {sessions : Table Session.id}

/-- A call for a pair. -/
theorem issues_of_labelled {call : AuthCall} {e : Surroundings} {d : Draw} {p : SessionTask TokenPair}
    (hcall : call.task config = p >>= fun pair => pure (.pair pair)) (hdraw : call.draw? = some d)
    (h : Labelled host d (e.world sessions) (Task.run (SessionOp.exec host) p (e.world sessions))) :
    IssuesNone host config sessions (call, e) ∨
      ∃ userId row, IssuedBy host config sessions (call, e) d userId row := by
  have hrun := authMachine_of_task host hcall sessions e
  generalize Task.run (SessionOp.exec host) p (e.world sessions) = r at h hrun
  cases h with
  | @kept r w' hkeeps hnone =>
    refine .inl ⟨by rw [hrun]; exact hkeeps, fun pair hpair => ?_⟩
    rw [hrun] at hpair
    cases r with
    | error e => exact nomatch hpair
    | ok pair => exact hnone pair rfl
  | made htoken howner hhash hmade =>
    exact .inr ⟨_, _, hdraw, ⟨_, by rw [hrun]; rfl, htoken⟩, howner, hhash, by rw [hrun]; exact hmade⟩

/-- A call that keeps the labels and answers something else. -/
theorem issuesNone_of_preserves {call : AuthCall} {e : Surroundings} {α : Type}
    {p : SessionTask α} {f : α → AuthAnswer} (hcall : call.task config = p >>= fun a => pure (f a))
    (hp : Task.Preserves (SessionOp.exec host) (fun w => labels w.sessions) p)
    (hf : ∀ a pair, f a ≠ .pair pair) : IssuesNone host config sessions (call, e) := by
  have hrun := authMachine_of_task host hcall sessions e
  refine ⟨by rw [hrun]; exact hp (e.world sessions), fun pair hpair => ?_⟩
  rw [hrun] at hpair
  cases hanswer : (Task.run (SessionOp.exec host) p (e.world sessions)).1 with
  | error e => rw [hanswer] at hpair; exact nomatch hpair
  | ok a => rw [hanswer] at hpair; exact hf a pair (Except.ok.inj hpair)

theorem preserves_labels_firstMatch (value : String) (sessions : List Session) :
    Task.Preserves (SessionOp.exec host) (fun w => labels w.sessions) (firstMatch value sessions) :=
  preserves_firstMatch (fun _ => rfl) value sessions

theorem preserves_labels_revokeFound (userId : String) (found : Option Session) (now : Date) :
    Task.Preserves (SessionOp.exec host) (fun w => labels w.sessions)
      (revokeFound userId found now) := by
  cases found with
  | none => exact .bind (preserves_labels (o := .updateMany _ now) trivial) fun _ => .pure _
  | some s => exact .bind (preserves_labels (o := .update s.id now) trivial) fun _ => .pure _

theorem preserves_labels_revokeToken (userId : String) (refreshToken : Option String) (now : Date) :
    Task.Preserves (SessionOp.exec host) (fun w => labels w.sessions)
      (revokeToken userId refreshToken now) := by
  unfold revokeToken
  cases refreshToken.bind valuePart with
  | none => exact preserves_labels_revokeFound userId none now
  | some value =>
    refine .bind (preserves_labels (o := .findMany _) trivial) fun sessions => ?_
    exact .bind (preserves_labels_firstMatch value sessions) fun found =>
      preserves_labels_revokeFound userId found now

theorem preserves_labels_validate (payload : JwtPayload) :
    Task.Preserves (SessionOp.exec host) (fun w => labels w.sessions)
      (JwtStrategy.validate payload) := by
  refine .bind (preserves_labels (o := .findFirst _) trivial) fun session => ?_
  cases session with
  | none => exact .throw _
  | some _ =>
    refine .bind (preserves_labels (o := .findUser _) trivial) fun user => ?_
    cases user with
    | none => exact .throw _
    | some user => exact .ite (.pure _) (.throw _)

/-- **One call**: it returns no token and makes no session, or it returns the token of the one
session that it makes. -/
theorem call_issues (host : SessionHost) (config : AuthConfig) (sessions : Table Session.id)
    {entry : AuthCall × Surroundings} (hcall : entry.1.isCleanup = false) :
    IssuesNone host config sessions entry ∨
      ∃ d userId row, IssuedBy host config sessions entry d userId row := by
  obtain ⟨call, e⟩ := entry
  cases call with
  | generateTokenPair userId email roles userAgent ipAddress draw =>
    exact (issues_of_labelled rfl rfl
      (labelled_generateTokenPair config userId email roles userAgent ipAddress draw _)).imp_right
        fun h => ⟨draw, h⟩
  | refreshTokens refreshToken userAgent ipAddress rotation =>
    exact (issues_of_labelled rfl rfl
      (labelled_refreshTokens config refreshToken userAgent ipAddress rotation _)).imp_right
        fun h => ⟨rotation.draw, h⟩
  | revokeToken userId refreshToken now =>
    exact .inl (issuesNone_of_preserves (f := fun _ => AuthAnswer.done) rfl
      (preserves_labels_revokeToken userId refreshToken now) nofun)
  | revokeAllTokens userId now =>
    exact .inl (issuesNone_of_preserves (f := AuthAnswer.count) rfl
      (preserves_labels (o := .updateMany _ now) trivial) nofun)
  | cleanupExpiredSessions now => exact nomatch hcall
  | validate payload =>
    exact .inl (issuesNone_of_preserves (f := AuthAnswer.user) rfl
      (preserves_labels_validate payload) nofun)

/-! ### Along a history -/

theorem sessionsAfter_concat (sessions : Table Session.id)
    (history : List (AuthCall × Surroundings)) (entry : AuthCall × Surroundings) :
    sessionsAfter host config sessions (history ++ [entry]) =
      (authMachine host config (sessionsAfter host config sessions history) entry).2 := by
  simp [sessionsAfter, Machine.after]

/-- A call of a history that has issued this session. -/
structure Origin (host : SessionHost) (config : AuthConfig)
    (history : List (AuthCall × Surroundings)) (pre : List (AuthCall × Surroundings))
    (entry : AuthCall × Surroundings) (d : Draw) (userId : String) (row : Session) : Prop where
  split : ∃ post, history = pre ++ entry :: post
  issued : IssuedBy host config (sessionsAfter host config (.empty Session.id) pre) entry d userId row

/-- **Every session has come out of a call** of the history. -/
theorem exists_origin {history : List (AuthCall × Surroundings)}
    (hcalls : ∀ entry ∈ history, entry.1.isCleanup = false) :
    ∀ label ∈ labels (sessionsAfter host config (.empty Session.id) history),
      ∃ pre entry d userId row, Origin host config history pre entry d userId row ∧
        row.label = label := by
  induction history using List.reverseRecOn with
  | nil => exact fun label hlabel => nomatch hlabel
  | append_singleton history entry ih =>
    intro label hlabel
    have hearlier : label ∈ labels (sessionsAfter host config (.empty Session.id) history) →
        ∃ pre entry' d userId row, Origin host config (history ++ [entry]) pre entry' d userId row ∧
          row.label = label := fun hold => by
      obtain ⟨pre, entry', d, userId, row, ⟨⟨post, rfl⟩, hissued⟩, hrow⟩ :=
        ih (fun entry hentry => hcalls entry (List.mem_append_left _ hentry)) label hold
      exact ⟨pre, entry', d, userId, row, ⟨⟨post ++ [entry], by simp⟩, hissued⟩, hrow⟩
    rw [sessionsAfter_concat] at hlabel
    rcases call_issues host config (sessionsAfter host config (.empty Session.id) history)
      (hcalls entry (List.mem_append_right _ (List.mem_singleton_self _))) with hnone | hissued
    · rw [hnone.1] at hlabel
      exact hearlier hlabel
    · obtain ⟨d, userId, row, hissued⟩ := hissued
      rw [hissued.made, List.mem_append, List.mem_singleton] at hlabel
      rcases hlabel with hold | rfl
      · exact hearlier hold
      · exact ⟨history, entry, d, userId, row, ⟨⟨[], rfl⟩, hissued⟩, rfl⟩

/-! ## Tokens that are used again -/

/-- What is promised outside: a text that is read as a UUID is not empty and has no dot, and
`bcrypt.compare` is true exactly for the hashed string. -/
structure ExactHost (host : SessionHost) : Prop where
  uuid : ∀ text user, host.uuid? text = some user → text ≠ "" ∧ '.' ∉ text.toList
  compare : ∀ value value' salt,
    host.bcryptCompare value (host.bcryptHash value' salt) = true ↔ value = value'

/-- The values of `randomUUID` along a history: not empty, without a dot, and each drawn once. -/
structure FreshValues (history : List (AuthCall × Surroundings)) : Prop where
  plain : ∀ entry ∈ history, ∀ d, entry.1.draw? = some d →
    d.refreshTokenValue ≠ "" ∧ '.' ∉ d.refreshTokenValue.toList
  once : history.Pairwise fun entry entry' => ∀ d d', entry.1.draw? = some d →
    entry'.1.draw? = some d' → d.refreshTokenValue ≠ d'.refreshTokenValue

/-- **The token is used again**: it has been issued along the history, and the session made for
it is revoked. -/
def Reused (host : SessionHost) (config : AuthConfig) (history : List (AuthCall × Surroundings))
    (refreshToken userId : String) : Prop :=
  ∃ pre entry d row, Origin host config history pre entry d userId row ∧
    refreshToken = userId ++ "." ++ d.refreshTokenValue ∧
    RevokedIn (sessionsAfter host config (.empty Session.id) history) row.id

/-- The parts of a token that has been issued. -/
theorem splitDots_eq {userId value : String} (hu : '.' ∉ userId.toList) (hv : '.' ∉ value.toList) :
    splitDots (userId ++ "." ++ value) = [userId, value] := by
  have htext : (userId ++ "." ++ value).toList = userId.toList ++ '.' :: value.toList := by
    simp
  rw [splitDots, htext, List.splitOn_append_cons_self_of_not_mem hu,
    List.splitOn_eq_singleton hv]
  simp

theorem parts_of_issued {userId value : String} (hu : userId ≠ "" ∧ '.' ∉ userId.toList)
    (hv : value ≠ "" ∧ '.' ∉ value.toList) :
    userPart (userId ++ "." ++ value) = some userId ∧
      valuePart (userId ++ "." ++ value) = some value := by
  rw [userPart, valuePart, tokenPart, tokenPart, splitDots_eq hu.2 hv.2]
  simp [hu.1, hv.1]

/-- Entries of a list that are not related either way are one. -/
theorem split_unique {α : Type} {R : α → α → Prop} {l before after before' after' : List α} {a b : α}
    (h : l.Pairwise R) (hl : l = before ++ a :: after) (hl' : l = before' ++ b :: after')
    (hab : ¬ R a b) (hba : ¬ R b a) : before = before' ∧ a = b := by
  rcases List.append_eq_append_iff.1 (hl.symm.trans hl') with ⟨c, hbefore, hc⟩ | ⟨c, hbefore, hc⟩
  · cases c with
    | nil => exact ⟨by rw [hbefore, List.append_nil], (List.cons.inj hc).1⟩
    | cons x c =>
      obtain ⟨rfl, hafter⟩ := List.cons.inj hc
      rw [hl, hafter] at h
      refine absurd ((List.pairwise_cons.1 (List.pairwise_append.1 h).2.1).1 b ?_) hab
      exact List.mem_append_right _ List.mem_cons_self
  · cases c with
    | nil => exact ⟨by rw [hbefore, List.append_nil], (List.cons.inj hc).1.symm⟩
    | cons x c =>
      obtain ⟨rfl, hafter⟩ := List.cons.inj hc
      rw [hl', hafter] at h
      refine absurd ((List.pairwise_cons.1 (List.pairwise_append.1 h).2.1).1 a ?_) hba
      exact List.mem_append_right _ List.mem_cons_self

/-- Two calls of a history that draw the same value are one. -/
theorem Origin.eq_of_value {history pre pre' : List (AuthCall × Surroundings)}
    {entry entry' : AuthCall × Surroundings} {d d' : Draw} {userId userId' : String}
    {row row' : Session} (hfresh : FreshValues history)
    (h : Origin host config history pre entry d userId row)
    (h' : Origin host config history pre' entry' d' userId' row')
    (hvalue : d.refreshTokenValue = d'.refreshTokenValue) : pre = pre' ∧ entry = entry' := by
  obtain ⟨post, hsplit⟩ := h.split
  obtain ⟨post', hsplit'⟩ := h'.split
  refine split_unique hfresh.once hsplit hsplit' (fun hne => ?_) fun hne => ?_
  · exact hne d d' h.issued.draw h'.issued.draw hvalue
  · exact hne d' d h'.issued.draw h.issued.draw hvalue.symm

/-- **A token that is used again** matches no active session. -/
theorem unrecognised_of_reused {history : List (AuthCall × Surroundings)} {refreshToken userId : String}
    (hcalls : ∀ entry ∈ history, entry.1.isCleanup = false) (hhost : ExactHost host)
    (hfresh : FreshValues history) (h : Reused host config history refreshToken userId) (now : Date)
    (e : Surroundings) :
    Unrecognised host refreshToken now
      (e.world (sessionsAfter host config (.empty Session.id) history)) userId := by
  obtain ⟨pre, entry, d, row, horigin, rfl, s, hs, hrevoked⟩ := h
  obtain ⟨post, hsplit⟩ := horigin.split
  have hmem : entry ∈ history := by
    rw [hsplit]
    exact List.mem_append_right _ List.mem_cons_self
  obtain ⟨hu, hv⟩ := parts_of_issued (hhost.uuid _ _ horigin.issued.owner)
    (hfresh.plain entry hmem d horigin.issued.draw)
  refine ⟨hu, ⟨_, horigin.issued.owner⟩, _, hv, fun t ht => Bool.eq_false_iff.2 fun hmatch => ?_⟩
  obtain ⟨⟨htmem, -, hopen⟩, -⟩ := mem_activeSessions.1 ht
  obtain ⟨pre', entry', d', userId', row', horigin', hlabel⟩ :=
    exists_origin hcalls t.label (mem_labels htmem)
  have hvalue : d.refreshTokenValue = d'.refreshTokenValue := by
    obtain ⟨k, hhash⟩ := horigin'.issued.hash
    have htoken : row'.refreshToken = t.refreshToken := congrArg (fun l => l.2.2) hlabel
    rw [matchesHash, ← htoken, hhash] at hmatch
    exact (hhost.compare _ _ _).1 hmatch
  obtain ⟨rfl, rfl⟩ := horigin.eq_of_value hfresh horigin' hvalue
  have hsame : row.label = row'.label := by
    have hmade := horigin.issued.made.symm.trans horigin'.issued.made
    exact List.head_eq_of_cons_eq (List.append_cancel_left hmade)
  have hid : row.id = t.id := congrArg Prod.fst (hsame.trans hlabel)
  rw [hid] at hs
  obtain rfl := Option.some.inj (hs.symm.trans (Table.get?_of_mem htmem))
  exact hrevoked hopen

/-- **Reuse is detected** exactly: the call fires on a token when the token is used again, and
only then. -/
def DetectsReuse (host : SessionHost) (config : AuthConfig)
    (history : List (AuthCall × Surroundings)) (refreshToken : String)
    (userAgent ipAddress : Option String) (m : AuthService.Rotation) (e : Surroundings) : Prop :=
  Fires host config refreshToken userAgent ipAddress m
      (e.world (sessionsAfter host config (.empty Session.id) history)) ↔
    ∃ userId, Reused host config history refreshToken userId

/-- When that is so: what the call does not recognise, and no operation fails for, has been issued
and is revoked; and no operation fails for a token that is used again. -/
theorem detectsReuse_iff_of_fresh {history : List (AuthCall × Surroundings)}
    (hcalls : ∀ entry ∈ history, entry.1.isCleanup = false) (hhost : ExactHost host)
    (hfresh : FreshValues history) (refreshToken : String) (userAgent ipAddress : Option String)
    (m : AuthService.Rotation) (e : Surroundings) :
    DetectsReuse host config history refreshToken userAgent ipAddress m e ↔
      (∀ userId, Unrecognised host refreshToken m.queried
          (e.world (sessionsAfter host config (.empty Session.id) history)) userId →
        CalmThroughout host userId m.queried
          (e.world (sessionsAfter host config (.empty Session.id) history)) →
        Reused host config history refreshToken userId) ∧
      ∀ userId, Reused host config history refreshToken userId →
        CalmThroughout host userId m.queried
          (e.world (sessionsAfter host config (.empty Session.id) history)) := by
  have hunknown {userId : String} (h : Reused host config history refreshToken userId) :=
    unrecognised_of_reused hcalls hhost hfresh h m.queried e
  rw [DetectsReuse, fires_iff]
  constructor
  · intro h
    refine ⟨fun userId hunrecognised hcalm => ?_, fun userId hreused => ?_⟩
    · obtain ⟨userId', hreused⟩ := h.1 ⟨userId, hunrecognised, hcalm⟩
      obtain rfl := Option.some.inj ((hunknown hreused).1.symm.trans hunrecognised.1)
      exact hreused
    · obtain ⟨userId', hunrecognised, hcalm⟩ := h.2 ⟨userId, hreused⟩
      obtain rfl := Option.some.inj ((hunknown hreused).1.symm.trans hunrecognised.1)
      exact hcalm
  · rintro ⟨hreuse, hcalm⟩
    constructor
    · rintro ⟨userId, hunrecognised, hup⟩
      exact ⟨userId, hreuse userId hunrecognised hup⟩
    · rintro ⟨userId, hreused⟩
      exact ⟨userId, hunknown hreused, hcalm userId hreused⟩

end

end EnterpriseSystem.Authentication
