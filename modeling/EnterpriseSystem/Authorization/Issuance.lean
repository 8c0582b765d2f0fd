import EnterpriseSystem.Authorization.Admission

/-!
# Where sessions come from

The handlers of `src/presentation/rest/controllers` behind the guards: whole requests, interleaved
at every query, every comparison of a hash and every count.

* `Endpoint.handle` — what a handler awaits; `serve` — a request from the guards to its answer.
* `Rotates` — the states in which a refresh has come to its new session.
* `issued_by` — a session is made by a refresh only, which has found an open session of the same
  user, has revoked it and has loaded the user as active.
* `locked_out` — a user without an open session never gets one, and never gets to a handler.
-/

namespace EnterpriseSystem.Authorization

open Identity Relational Concurrency Authentication

/-! ## The handlers -/

/-- A handler, with the body of the request. -/
inductive Endpoint where
  | login (email : String) (d : Draw)
  | register (email : String) (d : Draw)
  | refresh (refreshToken : String) (m : AuthService.Rotation)
  | logout (refreshToken : Option String) (now : Date)
  /-- A handler of `UserController` or of `HealthController`: it awaits nothing. -/
  | plain (route : Route)

/-- The route of a handler. -/
def Endpoint.route : Endpoint → Route
  | login .. => AuthController.login
  | register .. => AuthController.register
  | refresh .. => AuthController.refresh
  | logout .. => AuthController.logout
  | plain route => route

/-- A request for a handler. -/
structure Call where
  endpoint : Endpoint
  request : Request
  /-- `request.headers['user-agent']`. -/
  userAgent : Option String
  /-- The pipes let the body pass. -/
  accepted : Bool

/-- What a handler returns. -/
inductive Reply where
  /-- `{ ...tokenPair, tokenType }`. -/
  | tokens (tokenPair : TokenPair) (tokenType : String)
  | noContent
  | plain
  deriving DecidableEq

/-- `AuthService.revokeToken` of a user id that may be `undefined`. -/
def revokeTokenOf (userId refreshToken : Option String) (now : Date) : SessionTask Unit := do
  let session ← match refreshToken.bind valuePart with
    | some tokenValue => do
      let sessions ← SessionTask.findMany { userId := userId, revoked := false }
      AuthService.firstMatch tokenValue sessions
    | none => pure none
  match session with
  | some session =>
    let _ ← SessionTask.update session.id now
  | none =>
    let _ ← SessionTask.updateMany { userId := userId, revoked := false } now

/-- With a user it is the one that has been modelled before. -/
theorem revokeTokenOf_some (userId : String) (refreshToken : Option String) (now : Date) :
    revokeTokenOf (some userId) refreshToken now =
      AuthService.revokeToken userId refreshToken now := rfl

/-- `{ ...tokenPair, tokenType: 'Bearer' }`. -/
def bearer (tokenPair : TokenPair) : Reply := .tokens tokenPair "Bearer"

/-- The handlers. -/
def Endpoint.handle (config : AuthConfig) (userAgent ip : Option String)
    (user : Option AuthenticatedUser) : Endpoint → SessionTask Reply
  | login email d => do
    let tokenPair ← AuthService.generateTokenPair config "user-id" email ["user"] userAgent ip d
    return bearer tokenPair
  | register email d => do
    let tokenPair ← AuthService.generateTokenPair config "new-user-id" email ["user"] userAgent ip d
    return bearer tokenPair
  | refresh refreshToken m => do
    let tokenPair ← AuthService.refreshTokens config refreshToken userAgent ip m
    return bearer tokenPair
  | logout refreshToken now => do
    revokeTokenOf (user.map fun u => u.id.text) refreshToken now
    return .noContent
  | plain _ => return .plain

/-- What becomes of a request. -/
inductive Outcome where
  /-- The guards refuse it. -/
  | refused (e : HttpError)
  /-- The pipes do. -/
  | invalid
  /-- The handler throws. -/
  | failed (e : AuthError)
  | answered (reply : Reply)
  deriving DecidableEq

/-- A request: the guards, the pipes and the handler. -/
def serve (messageOf : Problem → String) (config : AuthConfig) (c : Call) : ApiProg Outcome := do
  match ← ExceptT.run (activate messageOf c.endpoint.route c.request) with
  | .error e => pure (.refused e)
  | .ok user =>
    if c.accepted then
      match ← ofSession (c.endpoint.handle config c.userAgent c.request.ip user) with
      | .error e => pure (.failed e)
      | .ok reply => pure (.answered reply)
    else pure .invalid

/-! ## Up to the new session -/

/-- The states in which a session that has been found is replaced: it is revoked in the first one,
the user is active in the second one, and the new token is hashed in the third one. -/
def Replaces (s : Authentication.Session) (seen : List SessionWorld) (owner : DbUuid) : Prop :=
  ∃ row account v u h, seen = [v, u, h] ∧ v.down = false ∧ v.sessions.get? s.id = some row ∧
    u.users owner = some account ∧ account.status = .active

/-- **The states in which a refresh has come to its new session**: in the first one it has found
the session that it presents, the loop over the hashes has gone on, and it replaces the session. -/
def Rotates (host : SessionHost) (refreshToken : String) (m : AuthService.Rotation)
    (seen : List SessionWorld) (owner : DbUuid) : Prop :=
  ∃ userId value s w loop rest, Presented host refreshToken userId value m.queried w s ∧
    host.uuid? userId = some owner ∧ seen = w :: (loop ++ rest) ∧ Replaces s rest owner

section

variable {host : SessionHost} {config : AuthConfig} {ss : List SessionWorld} {data : SessionData}
  {userId value refreshToken : String} {userAgent ip : Option String} {d : Draw}
  {m : AuthService.Rotation} {s : Authentication.Session}

/-- What the loop over the hashes finds is the first session that matches. -/
theorem saw_firstMatch {sessions : List Authentication.Session}
    (h : (ExceptT.run (AuthService.firstMatch value sessions)).Saw (SessionOp.exec host) ss
      (.ok (some s))) : sessions.find? (matchesHash host value) = some s := by
  induction sessions generalizing ss with
  | nil => cases h.2
  | cons t sessions ih =>
    rw [AuthService.firstMatch] at h
    rcases Prog.saw_exceptBind.1 h with ⟨_, post, isMatch, rfl, hfirst, hrest⟩ | ⟨_, _, he⟩
    swap
    · cases he
    obtain ⟨w, rfl, hcompare⟩ := Prog.saw_await.1 hfirst
    rw [exec_bcryptCompare] at hcompare
    split_ifs at hcompare
    replace hcompare : matchesHash host value t = isMatch := Except.ok.inj hcompare
    cases isMatch with
    | true =>
      obtain ⟨-, hfound⟩ := hrest
      cases hfound
      exact List.find?_cons_of_pos hcompare
    | false =>
      rw [List.find?_cons_of_neg (by simp [hcompare])]
      exact ih hrest

/-- The operations before the new session make none. -/
theorem only_firstMatch (sessions : List Authentication.Session) :
    Task.Only (fun o => ∀ data, o ≠ .create data) (AuthService.firstMatch value sessions) := by
  induction sessions with
  | nil => exact .pure none
  | cons t sessions ih =>
    refine .bind (.await (by simp)) fun isMatch => ?_
    cases isMatch with
    | true => exact .pure (some t)
    | false => exact ih

theorem awaits_generateTokenPair {email : String} {roles : List String}
    (h : (ExceptT.run (AuthService.generateTokenPair config userId email roles userAgent ip d)).Awaits
      (SessionOp.exec host) ss (.create data)) : data.userId = userId ∧ ∃ w, ss = [w] := by
  rw [AuthService.generateTokenPair] at h
  rcases Prog.awaits_exceptBind.1 h with hfirst | ⟨_, post, hash, rfl, hfirst, hrest⟩
  · exact absurd rfl ((Task.Only.await (by simp) : Task.Only (fun o => ∀ data, o ≠ .create data)
      (SessionTask.bcryptHash d.refreshTokenValue)).of_awaits hfirst data)
  obtain ⟨w, rfl, -⟩ := Prog.saw_await.1 hfirst
  rcases Prog.awaits_exceptBind.1 hrest with hcreate | ⟨_, _, _, -, -, hreturn⟩
  swap
  · exact hreturn.elim
  cases post with
  | nil =>
    cases Prog.awaits_op_nil.1 hcreate
    exact ⟨rfl, w, rfl⟩
  | cons v post =>
    have hnone := Prog.awaits_op_cons.1 hcreate
    exact hnone.elim

/-- What has been answered up to the new pair. -/
theorem saw_generateTokenPair {email : String} {roles : List String} {tokenPair : TokenPair}
    (h : (ExceptT.run (AuthService.generateTokenPair config userId email roles userAgent ip d)).Saw
      (SessionOp.exec host) ss (.ok tokenPair)) :
    tokenPair.accessToken.sub = userId ∧ ∃ w w', ss = [w, w'] ∧ (host.uuid? userId).isSome := by
  rw [AuthService.generateTokenPair] at h
  rcases Prog.saw_exceptBind.1 h with ⟨_, _, hash, rfl, hfirst, hrest⟩ | ⟨_, _, he⟩
  swap
  · cases he
  obtain ⟨w, rfl, -⟩ := Prog.saw_await.1 hfirst
  rcases Prog.saw_exceptBind.1 hrest with ⟨_, _, row, rfl, hcreate, hreturn⟩ | ⟨_, _, he⟩
  swap
  · cases he
  obtain ⟨w', rfl, hmade⟩ := Prog.saw_await.1 hcreate
  obtain ⟨rfl, hpair⟩ := hreturn
  cases hpair
  refine ⟨rfl, w, w', rfl, ?_⟩
  by_contra hnone
  rw [Option.not_isSome_iff_eq_none] at hnone
  by_cases hdown : w'.down = true
  · rw [exec_of_down hdown] at hmade
    cases hmade
  · rw [exec_of_up (Bool.eq_false_iff.2 hdown), SessionOp.perform, hnone] at hmade
    cases hmade

/-- A revocation that has been answered has hit a row. -/
theorem get?_of_updated {id : DbUuid} {now : Date} {w : SessionWorld} {row : Authentication.Session}
    (h : ((SessionOp.update id now).exec host w).1 = .ok row) :
    w.down = false ∧ ∃ row, w.sessions.get? id = some row := by
  by_cases hdown : w.down = true
  · rw [exec_of_down hdown] at h
    cases h
  · rw [exec_of_up (Bool.eq_false_iff.2 hdown), SessionOp.perform] at h
    refine ⟨Bool.eq_false_iff.2 hdown, ?_⟩
    cases hrow : w.sessions.get? id with
    | none =>
      rw [hrow] at h
      cases h
    | some row => exact ⟨row, rfl⟩

/-- A user that has been loaded. -/
theorem user_of_found {id : String} {w : SessionWorld} {account : Authentication.Account}
    (h : ((SessionOp.findUser id).exec host w).1 = .ok (some account)) :
    ∃ owner, host.uuid? id = some owner ∧ w.users owner = some account := by
  have hquery := run_findUser host id w
  rw [show (SessionOp.findUser id).exec host w = _ from hquery] at h
  cases hid : host.uuid? id with
  | none =>
    rw [hid] at h
    split_ifs at h
  | some owner =>
    rw [hid] at h
    split_ifs at h
    exact ⟨owner, rfl, Except.ok.inj h⟩

/-- An operation that is none of those that make a session. -/
theorem not_awaits_of_only {α : Type} {p : SessionTask α}
    (hp : Task.Only (fun o => ∀ data, o ≠ .create data) p) :
    ¬ (ExceptT.run p).Awaits (SessionOp.exec host) ss (.create data) :=
  fun hawaits => hp.of_awaits hawaits data rfl

theorem awaits_rotateFound (h : (ExceptT.run (rotateFound config userId userAgent ip m s)).Awaits
    (SessionOp.exec host) ss (.create data)) :
    data.userId = userId ∧ ∃ owner, host.uuid? userId = some owner ∧ Replaces s ss owner := by
  rw [rotateFound] at h
  rcases Prog.awaits_exceptBind.1 h with hfirst | ⟨_, post, row, rfl, hfirst, hrest⟩
  · exact absurd hfirst (not_awaits_of_only (.await (by simp)))
  obtain ⟨v, rfl, hupdated⟩ := Prog.saw_await.1 hfirst
  obtain ⟨hup, row, hrow⟩ := get?_of_updated hupdated
  rcases Prog.awaits_exceptBind.1 hrest with hsecond | ⟨_, post, found, rfl, hsecond, hlast⟩
  · exact absurd hsecond (not_awaits_of_only (.await (by simp)))
  obtain ⟨u, rfl, hfound⟩ := Prog.saw_await.1 hsecond
  cases found with
  | none => exact hlast.elim
  | some account =>
    obtain ⟨owner, howner, haccount⟩ := user_of_found hfound
    by_cases hactive : account.status = .active
    · simp only [hactive, if_true] at hlast
      obtain ⟨hdata, w, rfl⟩ := awaits_generateTokenPair hlast
      exact ⟨hdata, owner, howner, row, account, v, u, w, rfl, hup, hrow, haccount, hactive⟩
    · simp only [hactive, if_false] at hlast
      exact hlast.elim

theorem saw_rotateFound {tokenPair : TokenPair}
    (h : (ExceptT.run (rotateFound config userId userAgent ip m s)).Saw (SessionOp.exec host) ss
      (.ok tokenPair)) : tokenPair.accessToken.sub = userId ∧
      ∃ pre w owner, ss = pre ++ [w] ∧ host.uuid? userId = some owner ∧ Replaces s pre owner := by
  rw [rotateFound] at h
  rcases Prog.saw_exceptBind.1 h with ⟨_, post, row, rfl, hfirst, hrest⟩ | ⟨_, _, he⟩
  swap
  · cases he
  obtain ⟨v, rfl, hupdated⟩ := Prog.saw_await.1 hfirst
  obtain ⟨hup, row, hrow⟩ := get?_of_updated hupdated
  rcases Prog.saw_exceptBind.1 hrest with ⟨_, post, found, rfl, hsecond, hlast⟩ | ⟨_, _, he⟩
  swap
  · cases he
  obtain ⟨u, rfl, hfound⟩ := Prog.saw_await.1 hsecond
  cases found with
  | none => cases hlast.2
  | some account =>
    obtain ⟨owner, howner, haccount⟩ := user_of_found hfound
    by_cases hactive : account.status = .active
    · simp only [hactive, if_true] at hlast
      obtain ⟨hsub, w, w', rfl, -⟩ := saw_generateTokenPair hlast
      exact ⟨hsub, [v, u, w], w', owner, rfl, howner, row, account, v, u, w, rfl, hup, hrow,
        haccount, hactive⟩
    · simp only [hactive, if_false] at hlast
      cases hlast.2

/-- The query and the loop, up to the session that is found. -/
theorem saw_found {sessions : List Authentication.Session} {pre loop : List SessionWorld}
    (huser : userPart refreshToken = some userId) (hvalue : valuePart refreshToken = some value)
    (hquery : (ExceptT.run (SessionTask.findMany (activeQuery userId m.queried))).Saw
      (SessionOp.exec host) pre (.ok sessions))
    (hloop : (ExceptT.run (AuthService.firstMatch value sessions)).Saw (SessionOp.exec host) loop
      (.ok (some s))) :
    ∃ w, pre = [w] ∧ Presented host refreshToken userId value m.queried w s := by
  obtain ⟨w, rfl, hanswer⟩ := Prog.saw_await.1 hquery
  have hrun := run_findMany host (activeQuery userId m.queried) w
  rw [show (SessionOp.findMany (activeQuery userId m.queried)).exec host w = _ from hrun] at hanswer
  dsimp only at hanswer
  split_ifs at hanswer
  refine ⟨w, rfl, huser, hvalue, ?_⟩
  rw [activeSessions, Except.ok.inj hanswer]
  exact saw_firstMatch hloop

/-- **A refresh makes a session** only after it has come to it. -/
theorem awaits_refreshTokens
    (h : (ExceptT.run (AuthService.refreshTokens config refreshToken userAgent ip m)).Awaits
      (SessionOp.exec host) ss (.create data)) :
    ∃ owner, host.uuid? data.userId = some owner ∧ Rotates host refreshToken m ss owner := by
  cases huser : userPart refreshToken with
  | none =>
    rw [AuthService.refreshTokens, huser] at h
    exact h.elim
  | some userId =>
    cases hvalue : valuePart refreshToken with
    | none =>
      rw [AuthService.refreshTokens, huser, hvalue] at h
      exact h.elim
    | some value =>
      rw [refreshTokens_eq huser hvalue] at h
      rcases Prog.awaits_exceptBind.1 h with hfirst | ⟨_, post, sessions, rfl, hquery, hrest⟩
      · exact absurd hfirst (not_awaits_of_only (.await (by simp)))
      rcases Prog.awaits_exceptBind.1 hrest with hsecond | ⟨loop, post, found, rfl, hloop, hlast⟩
      · exact absurd hsecond (not_awaits_of_only (only_firstMatch sessions))
      cases found with
      | none =>
        refine absurd hlast (not_awaits_of_only (p := refuseAll userId m) ?_)
        exact .bind (.await (by simp)) fun _ => .throw _
      | some s =>
        obtain ⟨w, rfl, hpresented⟩ := saw_found huser hvalue hquery hloop
        obtain ⟨hdata, owner, howner, hreplaces⟩ := awaits_rotateFound hlast
        exact ⟨owner, hdata ▸ howner, userId, value, s, w, loop, post, hpresented, howner, rfl,
          hreplaces⟩

/-- **A refresh returns a pair** only after it has come to its session. -/
theorem saw_refreshTokens {tokenPair : TokenPair}
    (h : (ExceptT.run (AuthService.refreshTokens config refreshToken userAgent ip m)).Saw
      (SessionOp.exec host) ss (.ok tokenPair)) :
    ∃ pre w owner, ss = pre ++ [w] ∧ host.uuid? tokenPair.accessToken.sub = some owner ∧
      Rotates host refreshToken m pre owner := by
  cases huser : userPart refreshToken with
  | none =>
    rw [AuthService.refreshTokens, huser] at h
    cases h.2
  | some userId =>
    cases hvalue : valuePart refreshToken with
    | none =>
      rw [AuthService.refreshTokens, huser, hvalue] at h
      cases h.2
    | some value =>
      rw [refreshTokens_eq huser hvalue] at h
      rcases Prog.saw_exceptBind.1 h with ⟨_, post, sessions, rfl, hquery, hrest⟩ | ⟨_, _, he⟩
      swap
      · cases he
      rcases Prog.saw_exceptBind.1 hrest with ⟨loop, post, found, rfl, hloop, hlast⟩ | ⟨_, _, he⟩
      swap
      · cases he
      cases found with
      | none =>
        rcases Prog.saw_exceptBind.1 hlast with ⟨_, _, _, rfl, -, hthrow⟩ | ⟨_, _, he⟩
        · cases hthrow.2
        · cases he
      | some s =>
        obtain ⟨w, rfl, hpresented⟩ := saw_found huser hvalue hquery hloop
        obtain ⟨rfl, pre, w', owner, rfl, howner, hreplaces⟩ := saw_rotateFound hlast
        exact ⟨w :: (loop ++ pre), w', owner, by simp, howner, _, value, s, w, loop, pre, hpresented,
          howner, rfl, hreplaces⟩

/-- A refresh that has come to its session has seen an open session of the user. -/
theorem Rotates.exists_open {owner : DbUuid} (h : Rotates host refreshToken m ss owner) :
    ∃ w ∈ ss, Open owner w := by
  obtain ⟨userId, value, s, w, loop, rest, hpresented, howner, rfl, -⟩ := h
  have hactive := mem_activeSessions.1 (List.mem_of_find?_eq_some hpresented.first)
  obtain ⟨⟨hs, hid, hopen⟩, -⟩ := hactive
  exact ⟨w, List.mem_cons_self, s, hs, Option.some.inj (hid.symm.trans howner), hopen⟩

end

/-! ## Whole requests -/

/-- What the handlers of `login` and `register` pass as a user id is no UUID. -/
structure Placeholders (host : SessionHost) : Prop where
  login : host.uuid? "user-id" = none
  register : host.uuid? "new-user-id" = none

section

variable {host : SessionHost} {config : AuthConfig} {ss : List SessionWorld} {data : SessionData}
  {userAgent ip : Option String} {user : Option AuthenticatedUser} {endpoint : Endpoint}
  {owner : DbUuid} {messageOf : Problem → String} {c : Call} {seen : List ApiWorld}

/-- A logout makes no session. -/
theorem only_revokeTokenOf (userId refreshToken : Option String) (now : Date) :
    Task.Only (fun o => ∀ data, o ≠ .create data) (revokeTokenOf userId refreshToken now) := by
  have hrest : ∀ session : Option Authentication.Session,
      Task.Only (fun o => ∀ data, o ≠ .create data) (match session with
      | some session => do let _ ← SessionTask.update session.id now
      | none => do let _ ← SessionTask.updateMany { userId := userId, revoked := false } now) := by
    intro session
    cases session with
    | some session => exact .bind (.await (by simp)) fun _ => .pure ()
    | none => exact .bind (.await (by simp)) fun _ => .pure ()
  rw [revokeTokenOf]
  cases refreshToken.bind valuePart with
  | none => exact .bind (.pure none) hrest
  | some value => exact .bind (.await (by simp)) fun sessions => .bind (only_firstMatch sessions) hrest

/-- **A handler makes a session** of a user only to replace one. -/
theorem awaits_handle (hplaceholders : Placeholders host) (hid : host.uuid? data.userId = some owner)
    (h : (ExceptT.run (endpoint.handle config userAgent ip user)).Awaits (SessionOp.exec host) ss
      (.create data)) :
    ∃ refreshToken m, endpoint = .refresh refreshToken m ∧ Rotates host refreshToken m ss owner := by
  cases endpoint with
  | login email d =>
    rcases Prog.awaits_exceptBind.1 h with hpair | ⟨_, _, _, -, -, hreturn⟩
    · rw [(awaits_generateTokenPair hpair).1, hplaceholders.login] at hid
      cases hid
    · exact hreturn.elim
  | register email d =>
    rcases Prog.awaits_exceptBind.1 h with hpair | ⟨_, _, _, -, -, hreturn⟩
    · rw [(awaits_generateTokenPair hpair).1, hplaceholders.register] at hid
      cases hid
    · exact hreturn.elim
  | refresh refreshToken m =>
    rcases Prog.awaits_exceptBind.1 h with hpair | ⟨_, _, _, -, -, hreturn⟩
    · obtain ⟨owner', hid', hrotates⟩ := awaits_refreshTokens hpair
      obtain rfl : owner' = owner := Option.some.inj (hid'.symm.trans hid)
      exact ⟨refreshToken, m, rfl, hrotates⟩
    · exact hreturn.elim
  | logout refreshToken now =>
    rcases Prog.awaits_exceptBind.1 h with hrevoke | ⟨_, _, _, -, -, hreturn⟩
    · exact absurd hrevoke (not_awaits_of_only (only_revokeTokenOf ..))
    · exact hreturn.elim
  | plain route => exact h.elim

/-- **A handler returns a pair** for a user only after it has replaced a session of the user. -/
theorem saw_handle {tokenPair : TokenPair} {tokenType : String} (hplaceholders : Placeholders host)
    (h : (ExceptT.run (endpoint.handle config userAgent ip user)).Saw (SessionOp.exec host) ss
      (.ok (.tokens tokenPair tokenType))) :
    ∃ refreshToken m pre w owner, endpoint = .refresh refreshToken m ∧ ss = pre ++ [w] ∧
      host.uuid? tokenPair.accessToken.sub = some owner ∧ Rotates host refreshToken m pre owner := by
  cases endpoint with
  | login email d =>
    rcases Prog.saw_exceptBind.1 h with ⟨_, _, _, -, hpair, -⟩ | ⟨_, _, he⟩
    · obtain ⟨-, -, -, -, hsome⟩ := saw_generateTokenPair hpair
      simp [hplaceholders.login] at hsome
    · cases he
  | register email d =>
    rcases Prog.saw_exceptBind.1 h with ⟨_, _, _, -, hpair, -⟩ | ⟨_, _, he⟩
    · obtain ⟨-, -, -, -, hsome⟩ := saw_generateTokenPair hpair
      simp [hplaceholders.register] at hsome
    · cases he
  | refresh refreshToken m =>
    rcases Prog.saw_exceptBind.1 h with ⟨pre, _, pair, rfl, hpair, hreturn⟩ | ⟨_, _, he⟩
    · obtain ⟨rfl, hreply⟩ := hreturn
      cases hreply
      obtain ⟨pre, w, owner, rfl, hid, hrotates⟩ := saw_refreshTokens hpair
      exact ⟨refreshToken, m, pre, w, owner, rfl, List.append_nil _, hid, hrotates⟩
    · cases he
  | logout refreshToken now =>
    rcases Prog.saw_exceptBind.1 h with ⟨_, _, _, -, -, hreturn⟩ | ⟨_, _, he⟩
    · cases hreturn.2
    · cases he
  | plain route => cases h.2

/-- The strategy makes no session. -/
theorem not_awaits_authenticate_create {request : Request} :
    ¬ (ExceptT.run (JwtAuthGuard.authenticate messageOf request)).Awaits (ApiOp.exec host) seen
      (.session (.create data)) := by
  have honly : ∀ payload, Task.Only (fun o => ∀ data, o ≠ .create data)
      (JwtStrategy.validate payload) := by
    intro payload
    refine .bind (.await (by simp)) fun found => ?_
    cases found with
    | none => exact .throw _
    | some s =>
      refine .bind (.await (by simp)) fun account => ?_
      cases account with
      | none => exact .throw _
      | some account => exact .ite (.pure _) (.throw _)
  intro h
  cases htoken : request.token with
  | error info =>
    rw [JwtAuthGuard.authenticate, htoken] at h
    exact h.elim
  | ok payload =>
    rw [JwtAuthGuard.authenticate, htoken] at h
    rcases Prog.awaits_bind.1 h with hquery | ⟨_, _, r, -, -, hreturn⟩
    · exact not_awaits_of_only (honly payload) (awaits_ofSession.1 hquery)
    · cases r <;> exact hreturn.elim

/-- The guards make no session. -/
theorem not_awaits_activate : ¬ (ExceptT.run (activate messageOf c.endpoint.route c.request)).Awaits
    (ApiOp.exec host) seen (.session (.create data)) := by
  intro h
  rw [activate] at h
  rcases Prog.awaits_exceptBind.1 h with hfirst | ⟨_, _, user, -, -, hrest⟩
  · rw [JwtAuthGuard.canActivate] at hfirst
    split_ifs at hfirst
    · exact hfirst.elim
    rcases Prog.awaits_exceptBind.1 hfirst with hquery | ⟨_, _, _, -, -, hreturn⟩
    · exact not_awaits_authenticate_create hquery
    · exact hreturn.elim
  rcases Prog.awaits_exceptBind.1 hrest with hnone | ⟨_, _, _, -, -, hrest⟩
  · exact hnone.elim
  rcases Prog.awaits_exceptBind.1 hrest with hnone | ⟨_, _, _, -, -, hrest⟩
  · exact hnone.elim
  rcases Prog.awaits_exceptBind.1 hrest with hcounts | ⟨_, _, _, -, -, hreturn⟩
  · obtain ⟨t, ht⟩ := throttle_of_awaits hcounts
    cases ht
  · exact hreturn.elim

/-- **Behind the guards**: a request that makes a session has been cleared, and its handler makes
it. -/
theorem awaits_serve (h : (serve messageOf config c).Awaits (ApiOp.exec host) seen
    (.session (.create data))) :
    ∃ guards rest user, seen = guards ++ rest ∧
      Cleared host c.endpoint.route c.request guards user ∧
      (ExceptT.run (c.endpoint.handle config c.userAgent c.request.ip user)).Awaits
        (SessionOp.exec host) (rest.map ApiWorld.store) (.create data) := by
  rcases Prog.awaits_bind.1 h with hguards | ⟨guards, rest, r, rfl, hguards, hrest⟩
  · exact absurd hguards not_awaits_activate
  cases r with
  | error e => exact hrest.elim
  | ok user =>
    refine ⟨guards, rest, user, rfl, saw_activate_iff.1 hguards, ?_⟩
    by_cases haccepted : c.accepted = true
    · simp only [haccepted, if_true] at hrest
      rcases Prog.awaits_bind.1 hrest with hhandle | ⟨_, _, r, -, -, hreturn⟩
      · exact awaits_ofSession.1 hhandle
      · cases r <;> exact hreturn.elim
    · simp only [haccepted] at hrest
      exact hrest.elim

/-- **The answer** to a request: a refusal, or the handler has been reached. -/
theorem saw_serve {outcome : Outcome} (h : (serve messageOf config c).Saw (ApiOp.exec host) seen
    outcome) : (∃ e, outcome = .refused e) ∨
    ∃ guards rest user, seen = guards ++ rest ∧
      Cleared host c.endpoint.route c.request guards user ∧
      ∀ reply, outcome = .answered reply →
        (ExceptT.run (c.endpoint.handle config c.userAgent c.request.ip user)).Saw
          (SessionOp.exec host) (rest.map ApiWorld.store) (.ok reply) := by
  obtain ⟨guards, rest, r, rfl, hguards, hrest⟩ := Prog.saw_bind.1 h
  cases r with
  | error e => exact Or.inl ⟨e, hrest.2.symm⟩
  | ok user =>
    refine Or.inr ⟨guards, rest, user, rfl, saw_activate_iff.1 hguards, ?_⟩
    rintro reply rfl
    by_cases haccepted : c.accepted = true
    · simp only [haccepted, if_true] at hrest
      obtain ⟨pre, _, r, rfl, hhandle, hreturn⟩ := Prog.saw_bind.1 hrest
      cases r with
      | error e => cases hreturn.2
      | ok reply' =>
        obtain ⟨rfl, hreply⟩ := hreturn
        cases hreply
        rw [List.append_nil]
        exact saw_ofSession.1 hhandle
    · simp only [haccepted] at hrest
      cases hrest.2

end

/-! ## Together -/

section

variable {ι : Type}

/-- Requests in progress. -/
abbrev HttpSystem (ι : Type) : Type := System ι ApiWorld ApiOp ApiOp.Ans Empty Outcome

/-- A step of a run of them. -/
abbrev HttpStep (ι : Type) : Type := HttpSystem ι × System.Label ι × HttpSystem ι

/-- Requests that have just come in. -/
def serveAll (messageOf : Problem → String) (config : AuthConfig) (calls : ι → Call)
    (w : ApiWorld) : HttpSystem ι :=
  System.start w fun i => ExceptT.lift (serve messageOf config (calls i))

/-- In this step, a request makes this session. -/
def Issues (host : SessionHost) (i : ι) (p : HttpStep ι) (row : Authentication.Session) : Prop :=
  ∃ data, p.2.1 = some i ∧ p.1.Performs i (.session (.create data)) ∧
    ((SessionOp.create data).exec host p.1.shared.store).1 = .ok row

/-- **A request that a session is due to**: a refresh that the guards have cleared in the states
`guards`, for some user, and that has replaced a session of the owner. -/
def Issued (host : SessionHost) (c : Call) (seen : List ApiWorld) (owner : DbUuid) : Prop :=
  ∃ refreshToken m guards rest user, c.endpoint = .refresh refreshToken m ∧
    seen = guards ++ rest ∧ Cleared host AuthController.refresh c.request guards (some user) ∧
      Rotates host refreshToken m (rest.map ApiWorld.store) owner

/-- The owner had an open session in one of the states that the request has seen. -/
theorem Issued.exists_open {host : SessionHost} {c : Call} {seen : List ApiWorld} {owner : DbUuid}
    (h : Issued host c seen owner) : ∃ v ∈ seen, Open owner v.store := by
  obtain ⟨_, _, guards, rest, _, -, rfl, -, hrotates⟩ := h
  obtain ⟨w, hw, hopen⟩ := hrotates.exists_open
  obtain ⟨v, hv, rfl⟩ := List.mem_map.1 hw
  exact ⟨v, List.mem_append_right _ hv, hopen⟩

/-- Nobody gets to `refresh` without a user. -/
theorem exists_user_of_cleared {host : SessionHost} {request : Request} {seen : List ApiWorld}
    {user : Option AuthenticatedUser}
    (h : Cleared host AuthController.refresh request seen user) : ∃ u, user = some u := by
  cases user with
  | none => simp [Cleared, AuthController.refresh, AuthController.route, Route.getAllAndOverride]
      at h
  | some u => exact ⟨u, rfl⟩

variable [DecidableEq ι] {host : SessionHost} {messageOf : Problem → String} {config : AuthConfig}
  {calls : ι → Call} {w : ApiWorld} {around : ApiWorld → ApiWorld → Prop}
  {pre post steps : List (HttpStep ι)} {p : HttpStep ι} {σ : HttpSystem ι} {i : ι}
  {row : Authentication.Session}

/-- A request has been answered as it is in the states that it has seen. -/
theorem outcome_iff_saw
    (h : Run (System.Step (ApiOp.exec host) around) Always (serveAll messageOf config calls w) steps
      σ) {outcome : Outcome} : σ.result? i = some (.ok outcome) ↔
      (serve messageOf config (calls i)).Saw (ApiOp.exec host) (System.seen i steps) outcome := by
  rw [System.result?_iff_saw h]
  constructor
  · intro hsaw
    obtain ⟨_, _, _, hseen, hpre, rfl, hr⟩ := Prog.saw_bind.1 hsaw
    cases hr
    rw [hseen, List.append_nil]
    exact hpre
  · exact fun hsaw => Prog.saw_bind.2 ⟨_, [], outcome, (List.append_nil _).symm, hsaw, rfl, rfl⟩

/-- A state that a request has seen is one of the run. -/
theorem exists_step_of_seen {v : ApiWorld} (hv : v ∈ System.seen i steps) :
    ∃ q ∈ steps, q.1.shared = v := by
  obtain ⟨q, hq, rfl⟩ := List.mem_map.1 hv
  exact ⟨q, (List.mem_filter.1 hq).1, rfl⟩

theorem issued_of_run (hplaceholders : Placeholders host)
    (h : Run (System.Step (ApiOp.exec host) around) Always (serveAll messageOf config calls w) pre σ)
    {data : SessionData} {owner : DbUuid} (hid : host.uuid? data.userId = some owner)
    (hperforms : σ.Performs i (.session (.create data))) :
    Issued host (calls i) (System.seen i pre) owner := by
  have hserve : (serve messageOf config (calls i)).Awaits (ApiOp.exec host) (System.seen i pre)
      (.session (.create data)) := by
    rcases Prog.awaits_bind.1 ((System.performs_iff_awaits h).1 hperforms) with
      hserve | ⟨_, _, _, -, -, hreturn⟩
    · exact hserve
    · exact hreturn.elim
  obtain ⟨guards, rest, user, hseen, hcleared, hhandle⟩ := awaits_serve hserve
  obtain ⟨refreshToken, m, hrefresh, hrotates⟩ := awaits_handle hplaceholders hid hhandle
  have hroute : (calls i).endpoint.route = AuthController.refresh := by
    rw [hrefresh]
    rfl
  rw [hroute] at hcleared
  obtain ⟨u, rfl⟩ := exists_user_of_cleared hcleared
  exact ⟨refreshToken, m, guards, rest, u, hrefresh, hseen, hcleared, hrotates⟩

/-- The owner of a session that has been made. -/
theorem uuid_of_made {data : SessionData} {w : SessionWorld}
    (h : ((SessionOp.create data).exec host w).1 = .ok row) :
    host.uuid? data.userId = some row.userId := by
  by_cases hdown : w.down = true
  · rw [exec_of_down hdown] at h
    cases h
  rw [exec_of_up (Bool.eq_false_iff.2 hdown), SessionOp.perform] at h
  cases hid : host.uuid? data.userId with
  | none =>
    rw [hid] at h
    cases h
  | some userId =>
    rw [hid] at h
    dsimp only at h
    split_ifs at h
    cases Except.ok.inj h
    rfl

/-- **Where sessions come from**, in any interleaving of requests, whatever else happens to the
database: from refreshes only. -/
theorem issued_by (hplaceholders : Placeholders host)
    (h : Run (System.Step (ApiOp.exec host) around) Always (serveAll messageOf config calls w)
      (pre ++ p :: post) σ) (hissues : Issues host i p row) :
    Issued host (calls i) (System.seen i pre) row.userId := by
  obtain ⟨data, -, hperforms, hmade⟩ := hissues
  obtain ⟨σ₁, hbefore, hrest⟩ := h.of_append
  obtain ⟨rfl, -⟩ := hrest.of_cons
  exact issued_of_run hplaceholders hbefore (uuid_of_made hmade) hperforms

/-- **One step**: a session is a later version of one that was there, or it has been made. -/
theorem mem_step {σ σ' : HttpSystem ι} {l : System.Label ι} {s' : Authentication.Session}
    (haround : ∀ v v', around v v' → Authentication.Continues v.store v'.store)
    (hstep : System.Step (ApiOp.exec host) around σ l σ') (hs' : s' ∈ σ'.shared.store.sessions) :
    (∃ s ∈ σ.shared.store.sessions, s.id = s'.id ∧ s.Later s') ∨
      ∃ i, Issues host i (σ, l, σ') s' := by
  cases l with
  | none => exact Or.inl (haround _ _ hstep.of_none.1 s' hs')
  | some i =>
    obtain ⟨o, k, hop, hshared, -, -⟩ := hstep.of_some
    rw [hshared] at hs'
    cases o with
    | throttle t c => exact Or.inl ⟨s', hs', rfl, .refl s'⟩
    | session o =>
      rcases mem_exec o hs' with hold | ⟨data, rfl, hmade⟩
      · exact Or.inl hold
      · exact Or.inr ⟨i, data, rfl, ⟨k, hop⟩, hmade⟩

/-- It opens no session of a user that has none and for whom none is issued. -/
theorem not_open_step {σ σ' : HttpSystem ι} {l : System.Label ι} {owner : DbUuid}
    (haround : ∀ v v', around v v' → Authentication.Continues v.store v'.store)
    (hstep : System.Step (ApiOp.exec host) around σ l σ')
    (hissues : ∀ i row, Issues host i (σ, l, σ') row → row.userId ≠ owner)
    (hclosed : ¬ Open owner σ.shared.store) : ¬ Open owner σ'.shared.store := by
  rintro ⟨s', hs', huser, hopen⟩
  rcases mem_step haround hstep hs' with ⟨s, hs, -, hlater⟩ | ⟨i, hmade⟩
  · refine hclosed ⟨s, hs, hlater.userId.symm.trans huser, ?_⟩
    exact by_contra fun hrevoked => hlater.revoked hrevoked hopen
  · exact hissues i s' hmade huser

/-- **A run** opens no session of a user that has none at its beginning. -/
theorem not_open_of_run {owner : DbUuid} (hplaceholders : Placeholders host)
    (haround : ∀ v v', around v v' → Authentication.Continues v.store v'.store)
    (hclosed : ¬ Open owner w.store)
    (h : Run (System.Step (ApiOp.exec host) around) Always (serveAll messageOf config calls w) steps
      σ) : (∀ q ∈ steps, ¬ Open owner q.1.shared.store) ∧ ¬ Open owner σ.shared.store := by
  induction h with
  | start => exact ⟨by simp, hclosed⟩
  | @next steps σ₁ σ₂ l hrun _ hstep ih =>
    obtain ⟨hbefore, hhere⟩ := ih
    refine ⟨fun q hq => ?_, not_open_step haround hstep ?_ hhere⟩
    · rcases List.mem_append.1 hq with hq | hq
      · exact hbefore q hq
      · rw [List.mem_singleton.1 hq]
        exact hhere
    · rintro i row ⟨data, -, hperforms, hmade⟩ huser
      have hissued := issued_of_run hplaceholders hrun (uuid_of_made hmade) hperforms
      obtain ⟨v, hv, hopen⟩ := hissued.exists_open
      obtain ⟨q, hq, rfl⟩ := exists_step_of_seen hv
      exact hbefore q hq (huser ▸ hopen)

/-- **Locked out**: no session, no way through the guards, and no pair of tokens. -/
structure LockedOut (host : SessionHost) (calls : ι → Call) (owner : DbUuid)
    (steps : List (HttpStep ι)) (σ : HttpSystem ι) : Prop where
  closed : (∀ q ∈ steps, ¬ Open owner q.1.shared.store) ∧ ¬ Open owner σ.shared.store
  refused : ∀ i payload outcome, (calls i).request.token = .ok payload →
    host.uuid? payload.sub = some owner →
      (calls i).endpoint.route.getAllAndOverride Metadata.isPublic ≠ some true →
        σ.result? i = some (.ok outcome) → ∃ e, outcome = .refused e
  pairs : ∀ i tokenPair tokenType,
    σ.result? i = some (.ok (.answered (.tokens tokenPair tokenType))) →
      host.uuid? tokenPair.accessToken.sub ≠ some owner

/-- **A user without an open session** is locked out for good, as long as the surroundings open
none. -/
theorem locked_out {owner : DbUuid} (hplaceholders : Placeholders host)
    (haround : ∀ v v', around v v' → Authentication.Continues v.store v'.store)
    (hclosed : ¬ Open owner w.store)
    (h : Run (System.Step (ApiOp.exec host) around) Always (serveAll messageOf config calls w) steps
      σ) : LockedOut host calls owner steps σ := by
  have hruns := not_open_of_run hplaceholders haround hclosed h
  have hseen : ∀ i, ∀ v ∈ System.seen i steps, ¬ Open owner v.store := by
    intro i v hv
    obtain ⟨q, hq, rfl⟩ := exists_step_of_seen hv
    exact hruns.1 q hq
  refine ⟨hruns, ?_, ?_⟩
  · intro i payload outcome htoken hid hprivate hi
    rcases saw_serve ((outcome_iff_saw h).1 hi) with hrefused | ⟨guards, rest, user, hsplit, hcleared, -⟩
    · exact hrefused
    exfalso
    cases user with
    | none => exact hprivate hcleared.1
    | some user =>
      obtain ⟨-, ⟨payload', w₁, w₂, later, htoken', rfl, hloads, -⟩, -⟩ := hcleared
      cases htoken.symm.trans htoken'
      obtain ⟨owner', _, hid', -, hopen, -⟩ := hloads
      obtain rfl : owner' = owner := Option.some.inj (hid'.symm.trans hid)
      exact hseen i w₁ (hsplit ▸ by simp) hopen
  · intro i tokenPair tokenType hi hid
    rcases saw_serve ((outcome_iff_saw h).1 hi) with ⟨e, he⟩ | ⟨guards, rest, user, hsplit, -, hreply⟩
    · cases he
    obtain ⟨_, _, before, last, owner', -, hrest, hid', hrotates⟩ :=
      saw_handle hplaceholders (hreply _ rfl)
    obtain rfl : owner' = owner := Option.some.inj (hid'.symm.trans hid)
    obtain ⟨v', hv', hopen⟩ := hrotates.exists_open
    obtain ⟨v, hv, rfl⟩ := List.mem_map.1 (hrest ▸ List.mem_append_left _ hv')
    exact hseen i v (hsplit ▸ List.mem_append_right _ hv) hopen

end

/-! ## A user comes back -/

/-- A refresh of the token of the one session, with an access token of the same user. -/
def comesBack : Call where
  endpoint := .refresh (hopper.text ++ ".issued") ⟨1, 1, ⟨"j", "next", 1⟩⟩
  request := hoppersRequest
  userAgent := none
  accepted := true

/-- The one request. -/
def comingBack (store : SessionWorld) : HttpSystem Unit :=
  serveAll (fun _ => exceptionName) weekly (fun _ => comesBack) (quiet store)

theorem placeholders_plain : Placeholders plainSessionHost := ⟨by decide +kernel, by decide +kernel⟩

/-- The session that it gets. -/
def nextSession : Authentication.Session where
  id := tablet
  userId := hopper
  refreshToken := "next"
  userAgent := none
  ipAddress := some "10.0.0.1"
  expiresAt := weekly.expiry 1
  createdAt := 0
  revokedAt := none

/-- The theorem at work: the tenth step of the request makes a session, and the request has replaced
the one that it presents. -/
theorem issued_by_comingBack :
    let exec := ApiOp.exec plainSessionHost
    let store := { hoppersWorld with ids := fun _ => tablet }
    let steps := (comingBack store).schedule exec (List.replicate 9 ())
    Issued plainSessionHost comesBack (System.seen () steps) hopper := by
  intro exec store steps
  let σ := (List.replicate 9 ()).foldl (System.next exec) (comingBack store)
  have hbefore : Run (System.Step exec fun _ _ => False) Always (comingBack store) steps σ :=
    System.run_schedule (by decide +kernel)
  have hlast : Run (System.Step exec fun _ _ => False) Always σ (σ.schedule exec [()])
      ([()].foldl (System.next exec) σ) := System.run_schedule (by decide +kernel)
  have hnew : nextSession ∈ (σ.next exec ()).shared.store.sessions.rows := by decide +kernel
  have hold : ∀ s ∈ σ.shared.store.sessions.rows, s.id ≠ nextSession.id := by decide +kernel
  clear_value σ steps
  have hrun : Run (System.Step exec fun _ _ => False) Always (comingBack store)
      (steps ++ (σ, some (), σ.next exec ()) :: []) (σ.next exec ()) := hbefore.append hlast
  have hstep := hrun.step_of_mem (List.mem_append_right _ (List.mem_singleton_self _))
  rcases mem_step (fun _ _ h => h.elim) hstep hnew with ⟨s, hs, hid, -⟩ | ⟨i, hissues⟩
  · exact absurd hid (hold s hs)
  · exact issued_by placeholders_plain hrun hissues

/-- The theorem at work: once the session has been revoked, the request is refused. -/
theorem locked_out_comingBack :
    let exec := ApiOp.exec plainSessionHost
    let σ := [()].foldl (System.next exec) (comingBack revokedWorld)
    ∃ e, σ.result? () = some (.ok (.refused e)) ∧
      LockedOut plainSessionHost (fun _ => comesBack) hopper
        ((comingBack revokedWorld).schedule exec [()]) σ := by
  intro exec σ
  have hrun : Run (System.Step exec fun v v' => Authentication.Continues v.store v'.store) Always
      (comingBack revokedWorld) ((comingBack revokedWorld).schedule exec [()]) σ :=
    System.run_schedule (by decide +kernel)
  have hclosed : ¬ Open hopper revokedWorld := by
    rintro ⟨s, hs, -, hopen⟩
    obtain rfl := List.mem_singleton.1 hs
    cases hopen
  have hlocked := locked_out placeholders_plain (fun _ _ h => h) hclosed hrun
  exact ⟨_, rfl, hlocked⟩

end EnterpriseSystem.Authorization
