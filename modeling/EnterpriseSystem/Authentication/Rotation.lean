import EnterpriseSystem.Authentication.Logout

/-!
# Rotating a refresh token

`AuthService.refreshTokens` revokes the session of the token before it makes the new one, each
with an operation of its own.

* `Presented` — the session that the loop over the hashes comes to.
* `rotateFound` — what happens once the session is found.
* `Generated`, `Rotated` — what a call can come to, once it makes a new pair.
* `afterRefresh_of_cutBefore`, `afterRefresh_of_not_cutBefore` — after the call the session is
  revoked exactly when no operation has failed up to the one that revokes it.
-/

namespace EnterpriseSystem.Authentication

open Identity Relational Concurrency AuthService

variable {host : SessionHost} {config : AuthConfig} {refreshToken : String}
  {userAgent ipAddress : Option String} {m : AuthService.Rotation} {w : SessionWorld} {s : Session}

/-- What `refreshTokens` asks for: the sessions of the user that are unrevoked and have not
expired. -/
def activeQuery (userId : String) (now : Date) : SessionWhere :=
  { userId := userId, revoked := false, expiresAfter := now }

/-- The sessions that it goes over. -/
def activeSessions (host : SessionHost) (userId : String) (now : Date) (w : SessionWorld) :
    List Session :=
  w.sessions.rows.filter ((activeQuery userId now).selects host)

/-- The token matches the session. -/
def matchesHash (host : SessionHost) (value : String) (s : Session) : Bool :=
  host.bcryptCompare value s.refreshToken

theorem mem_activeSessions {userId : String} {now : Date} :
    s ∈ activeSessions host userId now w ↔
      OpenSession host userId w s ∧ now < s.expiresAt := by
  simp [activeSessions, activeQuery, SessionWhere.selects, OpenSession, Table.mem_def, and_assoc]

/-- Once the session is found. -/
def rotateFound (config : AuthConfig) (userId : String) (userAgent ipAddress : Option String)
    (m : AuthService.Rotation) (session : Session) : SessionTask TokenPair := do
  let _ ← SessionTask.update session.id m.revoked
  match ← SessionTask.findUser userId with
  | some user =>
    if user.status = .active then
      generateTokenPair config userId user.email (user.roles.map Role.name) userAgent
        ipAddress m.draw
    else throw accountInactive
  | none => throw accountInactive

/-- When no session is found. -/
def refuseAll (userId : String) (m : AuthService.Rotation) : SessionTask TokenPair := do
  let _ ← SessionTask.updateMany { userId := userId, revoked := false } m.revoked
  throw tokenRevoked

/-- What follows the loop over the hashes. -/
def behindLoop (config : AuthConfig) (userId : String) (userAgent ipAddress : Option String)
    (m : AuthService.Rotation) : Option Session → SessionTask TokenPair
  | some session => rotateFound config userId userAgent ipAddress m session
  | none => refuseAll userId m

/-- **The parts of `refreshTokens`** for a token of two parts. -/
theorem refreshTokens_eq {userId value : String} (huser : userPart refreshToken = some userId)
    (hvalue : valuePart refreshToken = some value) :
    refreshTokens config refreshToken userAgent ipAddress m =
      SessionTask.findMany (activeQuery userId m.queried) >>= fun sessions =>
        firstMatch value sessions >>= behindLoop config userId userAgent ipAddress m := by
  rw [refreshTokens, huser, hvalue]
  refine bind_congr fun sessions => bind_congr fun found => ?_
  cases found <;> rfl

/-! ## Up to the session -/

/-- The number of operations before the one that revokes the session: the query, and the
comparisons. -/
def operationsBefore (host : SessionHost) (userId value : String) (now : Date) (w : SessionWorld) :
    ℕ :=
  (activeSessions host userId now w).findIdx (matchesHash host value) + 2

/-- The session that a token of two parts comes to. -/
structure Presented (host : SessionHost) (refreshToken userId value : String) (now : Date)
    (w : SessionWorld) (s : Session) : Prop where
  userPart : userPart refreshToken = some userId
  valuePart : valuePart refreshToken = some value
  first : (activeSessions host userId now w).find? (matchesHash host value) = some s

/-- An operation fails up to the one that revokes the session, that one included. -/
def CutBefore (host : SessionHost) (userId value : String) (now : Date) (w : SessionWorld) : Prop :=
  ∃ k ≤ operationsBefore host userId value now w, w.faults (w.performed + k) = true

/-- The world after some more operations that change no session. -/
def SessionWorld.skip (w : SessionWorld) (n : ℕ) : SessionWorld :=
  { w with performed := w.performed + n }

@[simp] theorem skip_sessions (n : ℕ) : (w.skip n).sessions = w.sessions := rfl

theorem skip_next (n : ℕ) : w.next.skip n = w.skip (n + 1) := by
  rw [SessionWorld.skip, SessionWorld.skip, SessionWorld.next, Nat.add_assoc, Nat.add_comm 1 n]

/-- One turn of the loop. -/
theorem run_firstMatch_turn (value : String) (t : Session) (sessions : List Session) :
    Task.run (SessionOp.exec host) (firstMatch value (t :: sessions)) w =
      if w.down then (.error unreachable, w.next)
      else if matchesHash host value t then (.ok (some t), w.next)
      else Task.run (SessionOp.exec host) (firstMatch value sessions) w.next :=
  run_firstMatch_cons value t sessions

/-- The loop comes to the first session that matches. -/
theorem run_firstMatch_of_calm {value : String} {sessions : List Session}
    (hfirst : sessions.find? (matchesHash host value) = some s)
    (hcalm : ∀ k < sessions.findIdx (matchesHash host value) + 1, (w.skip k).down = false) :
    Task.run (SessionOp.exec host) (firstMatch value sessions) w =
      (.ok (some s), w.skip (sessions.findIdx (matchesHash host value) + 1)) := by
  induction sessions generalizing w with
  | nil => exact nomatch hfirst
  | cons t sessions ih =>
    have hdown : w.down = false := hcalm 0 (Nat.succ_pos _)
    rw [run_firstMatch_turn, hdown, if_neg nofun]
    cases hmatch : matchesHash host value t with
    | true =>
      rw [List.find?_cons_of_pos hmatch] at hfirst
      obtain rfl := Option.some.inj hfirst
      rw [if_pos rfl, List.findIdx_cons, hmatch]
      rfl
    | false =>
      have hskip : ¬ matchesHash host value t = true := Bool.eq_false_iff.1 hmatch
      rw [List.find?_cons_of_neg hskip] at hfirst
      rw [List.findIdx_cons, hmatch] at hcalm ⊢
      have hlater := ih (w := w.next) hfirst fun k hk => by
        rw [skip_next]
        exact hcalm (k + 1) (Nat.succ_lt_succ hk)
      rw [if_neg nofun, hlater, skip_next]
      rfl

/-- Or to the comparison that fails. -/
theorem run_firstMatch_of_cut {value : String} {sessions : List Session}
    (hfirst : sessions.find? (matchesHash host value) = some s)
    (hcut : ∃ k < sessions.findIdx (matchesHash host value) + 1, (w.skip k).down = true) :
    ∃ n, Task.run (SessionOp.exec host) (firstMatch value sessions) w =
      (.error unreachable, w.skip n) := by
  induction sessions generalizing w with
  | nil => exact nomatch hfirst
  | cons t sessions ih =>
    rw [run_firstMatch_turn]
    by_cases hdown : w.down = true
    · rw [if_pos hdown]
      exact ⟨1, rfl⟩
    · rw [if_neg hdown]
      cases hmatch : matchesHash host value t with
      | true =>
        rw [List.findIdx_cons, hmatch] at hcut
        obtain ⟨k, hk, hfault⟩ := hcut
        obtain rfl : k = 0 := Nat.lt_one_iff.1 hk
        exact absurd hfault hdown
      | false =>
        have hskip : ¬ matchesHash host value t = true := Bool.eq_false_iff.1 hmatch
        rw [List.find?_cons_of_neg hskip] at hfirst
        rw [List.findIdx_cons, hmatch] at hcut
        obtain ⟨k, hk, hfault⟩ := hcut
        rw [if_neg nofun]
        cases k with
        | zero => exact absurd hfault hdown
        | succ k =>
          obtain ⟨n, hrun⟩ := ih hfirst ⟨k, Nat.lt_of_succ_lt_succ hk, by rwa [skip_next]⟩
          exact ⟨n + 1, by rw [hrun, skip_next]⟩

/-! ## Behind the session -/

/-- A new session, as `generateTokenPair` makes it in this world. -/
structure FreshSession (host : SessionHost) (config : AuthConfig) (userId : String) (d : Draw)
    (w : SessionWorld) (row : Session) : Prop where
  owner : host.uuid? userId = some row.userId
  hash : ∃ k, row.refreshToken = host.bcryptHash d.refreshTokenValue (w.salts k)
  key : ∃ k, row.id = w.ids k
  expiresAt : row.expiresAt = config.expiry d.now
  revokedAt : row.revokedAt = none
  newKey : w.sessions.get? row.id = none
  newHash : ∀ t ∈ w.sessions, t.refreshToken ≠ row.refreshToken

/-- **An operation that fails** rejects: it throws nothing of its own. -/
theorem rejected_of_exec {o : SessionOp} {e : AuthError} (h : (o.exec host w).1 = .error e) :
    ∃ message, e = .rejected message := by
  cases hdown : w.down with
  | true =>
    rw [exec_of_down hdown] at h
    exact ⟨_, (Except.error.inj h).symm⟩
  | false =>
    rw [exec_of_up hdown] at h
    cases o <;> simp only [SessionOp.perform] at h <;> (try split at h) <;> (try split_ifs at h) <;>
      first | exact ⟨_, (Except.error.inj h).symm⟩ | cases h

theorem ne_of_rejected {e : AuthError} (h : ∃ message, e = .rejected message) :
    e ≠ tokenRevoked := by
  obtain ⟨message, rfl⟩ := h
  exact nofun

/-- What `session.create` can come to. -/
theorem create_cases (host : SessionHost) (data : SessionData) (w : SessionWorld) :
    (∃ message, (SessionOp.create data).exec host w = (.error (.rejected message), w.next)) ∨
      ∃ userId, host.uuid? data.userId = some userId ∧ w.sessions.get? (w.ids w.performed) = none ∧
        (∀ t ∈ w.sessions, t.refreshToken ≠ data.refreshToken) ∧
        (SessionOp.create data).exec host w =
          (.ok (data.row (w.ids w.performed) userId w.clock),
            w.put (w.sessions.put (data.row (w.ids w.performed) userId w.clock))) := by
  cases hdown : w.down with
  | true => exact .inl ⟨_, exec_of_down hdown _⟩
  | false =>
    rw [exec_of_up hdown, SessionOp.perform]
    cases huser : host.uuid? data.userId with
    | none => exact .inl ⟨_, rfl⟩
    | some userId =>
      dsimp only
      split_ifs with htaken hgone
      · exact .inl ⟨_, rfl⟩
      · exact .inl ⟨_, rfl⟩
      · rw [Bool.not_eq_true, Bool.or_eq_false_iff, Table.contains_eq_false_iff,
          List.any_eq_false] at htaken
        refine .inr ⟨userId, rfl, htaken.1, fun t ht heq => ?_, rfl⟩
        exact htaken.2 t ht (beq_iff_eq.2 heq)

/-- What `generateTokenPair` can come to: it throws and changes no session, or it makes a new
one and returns its pair. -/
inductive Generated (host : SessionHost) (config : AuthConfig) (userId email : String)
    (roles : List String) (d : Draw) (w : SessionWorld) :
    Except AuthError TokenPair × SessionWorld → Prop where
  | failed {message : String} {w' : SessionWorld} : w'.sessions = w.sessions →
    Generated host config userId email roles d w (.error (.rejected message), w')
  | issued {row : Session} {w' : SessionWorld} : FreshSession host config userId d w row →
    w'.sessions = w.sessions.put row →
    Generated host config userId email roles d w (.ok ⟨⟨userId, email, roles, d.jti⟩,
      userId ++ "." ++ d.refreshTokenValue, config.accessTokenTtl⟩, w')

theorem generated (host : SessionHost) (config : AuthConfig) (userId email : String) (roles : List String)
    (userAgent ipAddress : Option String) (d : Draw) (w : SessionWorld) :
    Generated host config userId email roles d w (Task.run (SessionOp.exec host)
      (generateTokenPair config userId email roles userAgent ipAddress d) w) := by
  have hhash : Task.run (SessionOp.exec host) (SessionTask.bcryptHash d.refreshTokenValue) w =
      (SessionOp.bcryptHash d.refreshTokenValue).exec host w := rfl
  rw [generateTokenPair]
  cases hdown : w.down with
  | true =>
    rw [exec_of_down hdown] at hhash
    rw [Task.run_bind_of_error _ hhash]
    exact .failed rfl
  | false =>
    rw [exec_of_up hdown] at hhash
    rw [Task.run_bind_of_ok _ hhash]
    generalize hdata : (⟨userId, host.bcryptHash d.refreshTokenValue (w.salts w.performed),
      userAgent.map fun s => String.ofList (s.toList.take 512), ipAddress,
      config.expiry d.now⟩ : SessionData) = data
    have hcreate : Task.run (SessionOp.exec host) (SessionTask.create data) w.next =
        (SessionOp.create data).exec host w.next := rfl
    rcases create_cases host data w.next with ⟨message, hfails⟩ | ⟨user, huser, hkey, hnew, hmade⟩
    · rw [hfails] at hcreate
      rw [Task.run_bind_of_error _ hcreate]
      exact .failed rfl
    · rw [hmade] at hcreate
      rw [Task.run_bind_of_ok _ hcreate]
      subst hdata
      refine .issued ?_ rfl
      exact ⟨huser, ⟨_, rfl⟩, ⟨_, rfl⟩, rfl, rfl, hkey, hnew⟩

/-- What follows once the session is found can come to: it throws before the session is revoked,
or behind that, or it makes a new session as well and returns its pair. -/
inductive Rotated (host : SessionHost) (config : AuthConfig) (userId : String)
    (m : AuthService.Rotation) (s : Session) (w : SessionWorld) :
    Except AuthError TokenPair × SessionWorld → Prop where
  | kept : w.down = true → Rotated host config userId m s w (.error unreachable, w.next)
  | lost {e : AuthError} {w' : SessionWorld} : w.down = false → e ≠ tokenRevoked →
    w'.sessions = w.sessions.put (s.revoke m.revoked) →
    Rotated host config userId m s w (.error e, w')
  | issued {pair : TokenPair} {row : Session} {v w' : SessionWorld} : w.down = false →
    v.sessions = w.sessions.put (s.revoke m.revoked) → v.ids = w.ids → v.salts = w.salts →
    FreshSession host config userId m.draw v row → w'.sessions = v.sessions.put row →
    pair.refreshToken = userId ++ "." ++ m.draw.refreshTokenValue →
    Rotated host config userId m s w (.ok pair, w')

theorem rotated (host : SessionHost) (config : AuthConfig) (userId : String) (userAgent ipAddress : Option String)
    (m : AuthService.Rotation) (hs : s ∈ w.sessions) :
    Rotated host config userId m s w (Task.run (SessionOp.exec host)
      (rotateFound config userId userAgent ipAddress m s) w) := by
  have hupdate : Task.run (SessionOp.exec host) (SessionTask.update s.id m.revoked) w =
      (SessionOp.update s.id m.revoked).exec host w := rfl
  rw [rotateFound]
  cases hdown : w.down with
  | true =>
    rw [exec_of_down hdown] at hupdate
    rw [Task.run_bind_of_error _ hupdate]
    exact .kept hdown
  | false =>
    rw [exec_of_up hdown, SessionOp.perform, Table.get?_of_mem hs] at hupdate
    rw [Task.run_bind_of_ok _ hupdate]
    generalize hv : w.put (w.sessions.put (s.revoke m.revoked)) = v
    have hsessions : v.sessions = w.sessions.put (s.revoke m.revoked) := by rw [← hv]; rfl
    have hids : v.ids = w.ids := by rw [← hv]; rfl
    have hsalts : v.salts = w.salts := by rw [← hv]; rfl
    rcases hfound : Task.run (SessionOp.exec host) (SessionTask.findUser userId) v with ⟨r, v'⟩
    obtain rfl : v' = v.next := by
      rw [run_findUser] at hfound
      exact (Prod.mk.inj hfound).2.symm
    cases r with
    | error e =>
      have hrejected : (SessionOp.findUser userId).exec host v = (.error e, v.next) := hfound
      rw [Task.run_bind_of_error _ hfound]
      exact .lost hdown (ne_of_rejected (rejected_of_exec (congrArg Prod.fst hrejected))) hsessions
    | ok user =>
      rw [Task.run_bind_of_ok _ hfound]
      cases user with
      | none => exact .lost hdown (by decide) hsessions
      | some user =>
        show Rotated host config userId m s w (Task.run (SessionOp.exec host)
          (if user.status = .active then generateTokenPair config userId user.email
            (user.roles.map Role.name) userAgent ipAddress m.draw else throw accountInactive) v.next)
        split_ifs
        · have hpair := generated host config userId user.email
            (user.roles.map Role.name) userAgent ipAddress m.draw v.next
          generalize Task.run (SessionOp.exec host) (generateTokenPair config userId user.email
            (user.roles.map Role.name) userAgent ipAddress m.draw) v.next = r at hpair ⊢
          cases hpair with
          | failed hkeeps => exact .lost hdown (ne_of_rejected ⟨_, rfl⟩) (hkeeps.trans hsessions)
          | issued hfresh hmade => exact .issued (v := v.next) hdown hsessions hids hsalts hfresh hmade rfl
        · exact .lost hdown (by decide) hsessions

/-- A session that has been revoked on the way is there and revoked. -/
theorem Rotated.revoked {userId : String} {r : Except AuthError TokenPair × SessionWorld}
    (h : Rotated host config userId m s w r) (hup : w.down = false) :
    r.2.sessions.get? s.id = some (s.revoke m.revoked) := by
  have hput : (w.sessions.put (s.revoke m.revoked)).get? s.id = some (s.revoke m.revoked) :=
    Table.get?_put_self w.sessions (s.revoke m.revoked)
  cases h with
  | kept hdown => exact nomatch hup.symm.trans hdown
  | lost _ _ hlost => exact hlost ▸ hput
  | @issued pair row v w' _ hv _ _ hfresh hmade _ =>
    have hkey : row.id ≠ s.id := fun heq => by
      have hnew := hfresh.newKey
      rw [hv, heq, hput] at hnew
      exact nomatch hnew
    show w'.sessions.get? s.id = _
    rw [hmade, Table.get?_put_of_ne _ hkey, hv, hput]

/-! ## The whole call -/

theorem Presented.owner {userId value : String}
    (h : Presented host refreshToken userId value m.queried w s) :
    s ∈ w.sessions ∧ host.uuid? userId = some s.userId ∧ s.revokedAt = none :=
  (mem_activeSessions.1 (List.mem_of_find?_eq_some h.first)).1

/-- What the query for the active sessions answers. -/
theorem run_findMany_active {userId : String} {user : DbUuid} (huser : host.uuid? userId = some user)
    (now : Date) (w : SessionWorld) :
    Task.run (SessionOp.exec host) (SessionTask.findMany (activeQuery userId now)) w =
      (if w.down then .error unreachable else .ok (activeSessions host userId now w), w.next) := by
  have hwell : (activeQuery userId now).wellTyped host = true := by
    simp [activeQuery, SessionWhere.wellTyped, huser]
  rw [run_findMany, hwell, if_pos rfl]
  rfl

/-- **A refresh of a token that comes to a session**, when nothing fails on the way to it. -/
theorem run_refreshTokens_of_calm {userId value : String}
    (h : Presented host refreshToken userId value m.queried w s)
    (hcalm : ∀ k < operationsBefore host userId value m.queried w, (w.skip k).down = false) :
    Task.run (SessionOp.exec host) (refreshTokens config refreshToken userAgent ipAddress m) w =
      Task.run (SessionOp.exec host) (rotateFound config userId userAgent ipAddress m s)
        (w.skip (operationsBefore host userId value m.queried w)) := by
  have hquery := run_findMany_active h.owner.2.1 m.queried w
  have hup : w.down = false := hcalm 0 (Nat.succ_pos _)
  rw [hup, if_neg nofun] at hquery
  have hloop := run_firstMatch_of_calm (w := w.next) h.first fun k hk => by
    rw [skip_next]
    exact hcalm (k + 1) (Nat.succ_lt_succ hk)
  rw [refreshTokens_eq h.userPart h.valuePart, Task.run_bind_of_ok _ hquery,
    Task.run_bind_of_ok _ hloop, skip_next]
  rfl

/-- And when something does. -/
theorem run_refreshTokens_of_cut (config : AuthConfig) (userAgent ipAddress : Option String)
    {userId value : String} (h : Presented host refreshToken userId value m.queried w s)
    (hcut : ∃ k < operationsBefore host userId value m.queried w, (w.skip k).down = true) :
    ∃ n, Task.run (SessionOp.exec host)
      (refreshTokens config refreshToken userAgent ipAddress m) w =
        (.error unreachable, w.skip n) := by
  have hquery := run_findMany_active h.owner.2.1 m.queried w
  rw [refreshTokens_eq h.userPart h.valuePart]
  by_cases hdown : w.down = true
  · rw [if_pos hdown] at hquery
    exact ⟨1, Task.run_bind_of_error _ hquery⟩
  · rw [if_neg hdown] at hquery
    obtain ⟨k, hk, hfault⟩ := hcut
    cases k with
    | zero => exact absurd hfault hdown
    | succ k =>
      obtain ⟨n, hloop⟩ := run_firstMatch_of_cut (w := w.next) h.first
        ⟨k, Nat.lt_of_succ_lt_succ hk, by rwa [skip_next]⟩
      refine ⟨n + 1, ?_⟩
      rw [Task.run_bind_of_ok _ hquery, Task.run_bind_of_error _ hloop, skip_next]

/-- The world after a refresh. -/
def afterRefresh (host : SessionHost) (config : AuthConfig) (refreshToken : String)
    (userAgent ipAddress : Option String) (m : AuthService.Rotation) (w : SessionWorld) :
    Except AuthError TokenPair × SessionWorld :=
  Task.run (SessionOp.exec host) (refreshTokens config refreshToken userAgent ipAddress m) w

/-- **A refresh that fails early**, up to the operation that revokes the session, changes no
session. -/
theorem afterRefresh_of_cutBefore (config : AuthConfig) (userAgent ipAddress : Option String)
    {userId value : String} (h : Presented host refreshToken userId value m.queried w s)
    (hcut : CutBefore host userId value m.queried w) :
    (∃ e, (afterRefresh host config refreshToken userAgent ipAddress m w).1 = .error e) ∧
      (afterRefresh host config refreshToken userAgent ipAddress m w).2.sessions = w.sessions := by
  rw [afterRefresh]
  by_cases hearly : ∃ k < operationsBefore host userId value m.queried w, (w.skip k).down = true
  · obtain ⟨n, hrun⟩ := run_refreshTokens_of_cut config userAgent ipAddress h hearly
    rw [hrun]
    exact ⟨⟨unreachable, rfl⟩, rfl⟩
  · push Not at hearly
    obtain ⟨k, hk, hfault⟩ := hcut
    have hlast : k = operationsBefore host userId value m.queried w := by
      refine Nat.le_antisymm hk (Nat.le_of_not_lt fun hlt => hearly k hlt ?_)
      exact hfault
    subst hlast
    rw [run_refreshTokens_of_calm h fun k hk => Bool.eq_false_iff.2 (hearly k hk)]
    have hrotated := rotated host config userId userAgent ipAddress m
      (w := w.skip (operationsBefore host userId value m.queried w)) h.owner.1
    have hdown : (w.skip (operationsBefore host userId value m.queried w)).down = true := hfault
    generalize Task.run (SessionOp.exec host) (rotateFound config userId userAgent ipAddress m s)
      (w.skip (operationsBefore host userId value m.queried w)) = r at hrotated
    cases hrotated with
    | kept _ => exact ⟨⟨_, rfl⟩, rfl⟩
    | lost hup _ _ => exact nomatch hup.symm.trans hdown
    | issued hup _ _ _ _ _ _ => exact nomatch hup.symm.trans hdown

/-- **Otherwise the session is revoked**, whatever fails behind that. -/
theorem afterRefresh_of_not_cutBefore (config : AuthConfig) (userAgent ipAddress : Option String)
    {userId value : String} (h : Presented host refreshToken userId value m.queried w s)
    (hcalm : ¬ CutBefore host userId value m.queried w) :
    (afterRefresh host config refreshToken userAgent ipAddress m w).2.sessions.get? s.id =
      some (s.revoke m.revoked) := by
  have hup : ∀ k ≤ operationsBefore host userId value m.queried w, (w.skip k).down = false :=
    fun k hk => Bool.eq_false_iff.2 fun hfault => hcalm ⟨k, hk, hfault⟩
  rw [afterRefresh, run_refreshTokens_of_calm h fun k hk => hup k hk.le]
  exact (rotated (w := w.skip _) host config userId userAgent ipAddress m h.owner.1).revoked
    (hup _ le_rfl)

end EnterpriseSystem.Authentication
