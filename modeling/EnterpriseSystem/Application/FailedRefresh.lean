import EnterpriseSystem.Application.SessionTable
import EnterpriseSystem.Authentication.Rotation

/-!
# A refresh that fails

Both implementations of a refresh revoke the old session with an operation of its own, before
they make the new one.

* `run_execute_of_found` — the use case, once it has found an unrevoked session.
* `RevocationFails` — an operation fails up to the one that revokes the session.
* `failedRefresh` — up to there a failure leaves the session alone, and behind it no more.
-/

namespace EnterpriseSystem.Application

open Identity Relational Concurrency RefreshTokenUseCase

/-! ## The use case -/

section

variable {S : Type} {host : Host} {repo : SessionRepository S} {tokens : TokenService}
  {params : Refresh} {m : RefreshMoment} {w : RefreshWorld S} {x : SessionSnapshot}

theorem RefreshTask.run_user {α : Type} (p : UserTask α) (w : RefreshWorld S) :
    Task.run (RefreshOp.exec host repo) (RefreshTask.user p) w =
      ((Task.run (UserOp.exec host) p w.users).1,
        { w with users := (Task.run (UserOp.exec host) p w.users).2 }) := by
  obtain ⟨users, sessions⟩ := w
  exact Prog.run_translate (fun users => (⟨users, sessions⟩ : RefreshWorld S)) (fun _ _ => rfl)
    (ExceptT.run p) users

/-- Looking up the user changes no session. -/
theorem preserves_loadUser (userId : String) :
    Task.Preserves (RefreshOp.exec host repo) RefreshWorld.sessions (loadUser host userId) := by
  refine .tryCatch (.bind (.ofExcept _) fun id => .bind (fun w => ?_) fun user => .pure _)
    fun error => ?_
  · rw [RefreshTask.run_user]
  · cases error <;> first | exact .pure _ | exact .throw _

/-- The token is that of an unrevoked session that has not expired. -/
structure Valid (repo : SessionRepository S) (refreshToken : String) (checked : Date) (s : S)
    (x : SessionSnapshot) : Prop where
  holds : repo.Holds s x
  token : x.refreshToken = refreshToken
  unrevoked : x.revokedAt = none
  unexpired : ¬ x.expiresAt < checked

/-- What the use case does between the query and the rotation. -/
def loadAndRotate (host : Host) (tokens : TokenService) (params : Refresh) (m : RefreshMoment)
    (x : SessionSnapshot) : RefreshTask (Result AuthTokens) := do
  match ← loadUser host x.userId with
  | .error failure => return .fail failure
  | .ok user =>
    if user.isActive then rotate tokens params m x user
    else return .fail userInactive

/-- The query comes to the session of the token, or it fails. -/
theorem run_findByRefreshToken (host : Host) (hrepo : repo.Lawful)
    (hx : Valid repo params.refreshToken m.checked w.sessions x) :
    ∃ s', repo.get? s' = repo.get? w.sessions ∧
      (Task.run (RefreshOp.exec host repo) (RefreshTask.findByRefreshToken params.refreshToken) w =
          (.ok (some x), { w with sessions := s' }) ∨
        ∃ e, Task.run (RefreshOp.exec host repo)
          (RefreshTask.findByRefreshToken params.refreshToken) w =
            (.error e, { w with sessions := s' })) := by
  have hkeeps := hrepo.find_keeps w.sessions params.refreshToken
  have hrun : Task.run (RefreshOp.exec host repo)
      (RefreshTask.findByRefreshToken params.refreshToken) w =
      ((repo.exec (.findByRefreshToken params.refreshToken) w.sessions).1,
        { w with sessions := (repo.exec (.findByRefreshToken params.refreshToken) w.sessions).2 }) :=
    rfl
  rcases hfind : repo.exec (.findByRefreshToken params.refreshToken) w.sessions with ⟨r, s'⟩
  rw [hfind] at hkeeps hrun
  refine ⟨s', hkeeps, ?_⟩
  rcases r with e | found
  · exact .inr ⟨e, hrun⟩
  · rcases found with - | y
    · exact absurd hx.token (hrepo.find_none _ _ _ hfind x hx.holds)
    · obtain ⟨hy, htoken⟩ := hrepo.find_some _ _ _ _ hfind
      obtain rfl := hrepo.unique _ _ _ hx.holds hy (hx.token.trans htoken.symm)
      exact .inl hrun

/-- The use case, once it has found an unrevoked session. -/
theorem run_execute_of_found {w' : RefreshWorld S}
    (hx : Valid repo params.refreshToken m.checked w.sessions x)
    (hfound : Task.run (RefreshOp.exec host repo)
      (RefreshTask.findByRefreshToken params.refreshToken) w = (.ok (some x), w')) :
    Task.run (RefreshOp.exec host repo) (RefreshTokenUseCase.execute host tokens params m) w =
      Task.run (RefreshOp.exec host repo) (loadAndRotate host tokens params m x) w' := by
  rw [RefreshTokenUseCase.execute, Task.run_bind_of_ok _ hfound]
  show Task.run (RefreshOp.exec host repo) (if x.revokedAt.isSome then _
    else if x.expiresAt < m.checked then _ else loadAndRotate host tokens params m x) w' = _
  rw [hx.unrevoked, if_neg nofun, if_neg hx.unexpired]

/-- What the rotation asks the port to create. -/
def rotatedSession (tokens : TokenService) (params : Refresh) (m : RefreshMoment)
    (x : SessionSnapshot) (user : User) : NewSession :=
  ⟨user.id.value, m.refreshToken, params.userAgent.or x.userAgent, params.ipAddress.or x.ipAddress,
    m.issued + (tokens.getRefreshTokenTtl : ℤ) * 1000⟩

/-- What it returns. -/
def rotatedTokens (tokens : TokenService) (m : RefreshMoment) (user : User) : AuthTokens :=
  ⟨tokens.generateAccessToken user.id.value user.email.value [], m.refreshToken,
    tokens.getAccessTokenTtl, "Bearer", ⟨user.id.value, user.email.value, user.fullName⟩⟩

theorem rotate_eq {user : User} : rotate tokens params m x user =
    RefreshTask.revoke x.id >>= fun _ =>
      RefreshTask.create (rotatedSession tokens params m x user) >>= fun _ =>
        pure (.ok (rotatedTokens tokens m user)) := rfl

/-- **The rotation** leaves the session alone when the revocation fails, and returns nothing. -/
theorem rotate_of_fails {user : User} (hrepo : repo.Lawful) {e : Thrown}
    (hfails : (repo.exec (.revoke x.id) w.sessions).1 = .error e) :
    (Task.run (RefreshOp.exec host repo) (rotate tokens params m x user) w).1 = .error e ∧
      repo.get? (Task.run (RefreshOp.exec host repo) (rotate tokens params m x user) w).2.sessions =
        repo.get? w.sessions := by
  rcases hrevoke : repo.exec (.revoke x.id) w.sessions with ⟨r, s'⟩
  rw [hrevoke] at hfails
  obtain rfl : r = .error e := hfails
  have hrun : Task.run (RefreshOp.exec host repo) (RefreshTask.revoke x.id) w =
      (.error e, { w with sessions := s' }) :=
    congrArg (fun q => (q.1, { w with sessions := q.2 })) hrevoke
  rw [rotate_eq, Task.run_bind_of_error _ hrun]
  exact ⟨rfl, hrepo.error_keeps _ _ _ _ hrevoke⟩

/-- Otherwise it revokes the session, whatever fails behind that. -/
theorem rotate_of_revoked {user : User} (hrepo : repo.Lawful) (hx : repo.Holds w.sessions x)
    (hrevoked : ∀ e, (repo.exec (.revoke x.id) w.sessions).1 ≠ .error e) :
    ∃ revokedAt, repo.get? (Task.run (RefreshOp.exec host repo)
      (rotate tokens params m x user) w).2.sessions x.id = some (x.revoke revokedAt) := by
  rcases hrevoke : repo.exec (.revoke x.id) w.sessions with ⟨r, s'⟩
  rw [hrevoke] at hrevoked
  rcases r with e | ⟨⟩
  · exact absurd rfl (hrevoked e)
  have hrun : Task.run (RefreshOp.exec host repo) (RefreshTask.revoke x.id) w =
      (.ok (), { w with sessions := s' }) :=
    congrArg (fun q => (q.1, { w with sessions := q.2 })) hrevoke
  obtain ⟨revokedAt, hafter⟩ := hrepo.revoke_ok _ _ _ hrevoke
  have hgone : repo.get? s' x.id = some (x.revoke revokedAt) := by
    rw [hafter, Function.update_self, hx]
    rfl
  refine ⟨revokedAt, ?_⟩
  rw [rotate_eq, Task.run_bind_of_ok _ hrun]
  generalize rotatedSession tokens params m x user = data
  have hcreate : Task.run (RefreshOp.exec host repo) (RefreshTask.create data)
      { w with sessions := s' } =
      ((repo.exec (.create data) s').1, { w with sessions := (repo.exec (.create data) s').2 }) := rfl
  rcases hmade : repo.exec (.create data) s' with ⟨r, s''⟩
  rw [hmade] at hcreate
  rcases r with e | y
  · rw [Task.run_bind_of_error _ hcreate]
    exact (congrFun (hrepo.error_keeps _ _ _ _ hmade) x.id).trans hgone
  · rw [Task.run_bind_of_ok _ hcreate]
    obtain ⟨hnew, hput, -⟩ := hrepo.create_ok _ _ _ _ hmade
    have hother : x.id ≠ y.id := fun heq => by
      rw [← heq, hgone] at hnew
      exact nomatch hnew
    show repo.get? s'' x.id = _
    rw [hput, Function.update_of_ne hother, hgone]

/-! ### The whole use case -/

/-- No revocation goes through: the query or the look-up of the user fails, the user is gone or
not active, or the revocation itself fails. -/
def RevocationFails (host : Host) (repo : SessionRepository S) (refreshToken : String)
    (w : RefreshWorld S) : Prop :=
  ∀ x v user v',
    Task.run (RefreshOp.exec host repo) (RefreshTask.findByRefreshToken refreshToken) w =
        (.ok (some x), v) →
      Task.run (RefreshOp.exec host repo) (loadUser host x.userId) v = (.ok (.ok user), v') →
        user.isActive = true → ∃ e, (repo.exec (.revoke x.id) v'.sessions).1 = .error e

/-- What the use case comes to. -/
def afterExecute (host : Host) (repo : SessionRepository S) (tokens : TokenService)
    (params : Refresh) (m : RefreshMoment) (w : RefreshWorld S) :
    Except Thrown (Result AuthTokens) × RefreshWorld S :=
  Task.run (RefreshOp.exec host repo) (RefreshTokenUseCase.execute host tokens params m) w

/-- What comes of the user that is looked up. -/
theorem run_loadAndRotate {v : RefreshWorld S} {r : Except Thrown (Except DomainError User)}
    (hloaded : Task.run (RefreshOp.exec host repo) (loadUser host x.userId) w = (r, v)) :
    v.sessions = w.sessions ∧
      ((∀ user, r = .ok (.ok user) → user.isActive = false) ∧
        (∀ pair, (Task.run (RefreshOp.exec host repo)
          (loadAndRotate host tokens params m x) w).1 ≠ .ok (.ok pair)) ∧
        (Task.run (RefreshOp.exec host repo) (loadAndRotate host tokens params m x) w).2 = v ∨
      ∃ user, r = .ok (.ok user) ∧ user.isActive = true ∧
        Task.run (RefreshOp.exec host repo) (loadAndRotate host tokens params m x) w =
          Task.run (RefreshOp.exec host repo) (rotate tokens params m x user) v) := by
  constructor
  · have hkeeps : (Task.run (RefreshOp.exec host repo) (loadUser host x.userId) w).2.sessions =
        w.sessions := preserves_loadUser x.userId w
    rwa [hloaded] at hkeeps
  rw [loadAndRotate]
  rcases r with e | failure | user
  · rw [Task.run_bind_of_error _ hloaded]
    exact .inl ⟨nofun, nofun, rfl⟩
  · rw [Task.run_bind_of_ok _ hloaded]
    exact .inl ⟨nofun, nofun, rfl⟩
  · rw [Task.run_bind_of_ok _ hloaded]
    cases hactive : user.isActive with
    | false =>
      refine .inl ⟨?_, ?_⟩
      · rintro _ ⟨⟩
        exact hactive
      · dsimp only
        rw [hactive]
        exact ⟨nofun, rfl⟩
    | true =>
      refine .inr ⟨user, rfl, hactive, ?_⟩
      dsimp only
      rw [hactive]
      rfl

/-- **A use case that fails early** returns no tokens and leaves the session alone. -/
theorem afterExecute_of_fails (tokens : TokenService) (hrepo : repo.Lawful)
    (hx : Valid repo params.refreshToken m.checked w.sessions x)
    (hfails : RevocationFails host repo params.refreshToken w) :
    (∀ pair, (afterExecute host repo tokens params m w).1 ≠ .ok (.ok pair)) ∧
      repo.get? (afterExecute host repo tokens params m w).2.sessions x.id = some x := by
  rw [afterExecute]
  obtain ⟨s', hkeeps, hfound | ⟨e, hfound⟩⟩ := run_findByRefreshToken host hrepo hx
  · have hholds : repo.get? s' x.id = some x := (congrFun hkeeps x.id).trans hx.holds
    rw [run_execute_of_found hx hfound]
    rcases hloaded : Task.run (RefreshOp.exec host repo) (loadUser host x.userId)
      { w with sessions := s' } with ⟨r, v⟩
    obtain ⟨hv, ⟨-, hnone, hafter⟩ | ⟨user, rfl, hactive, hrun⟩⟩ := run_loadAndRotate hloaded
    · refine ⟨hnone, ?_⟩
      rw [hafter, hv]
      exact hholds
    · obtain ⟨e, he⟩ := hfails x _ user v hfound hloaded hactive
      rw [hrun]
      refine ⟨fun pair h => absurd ((rotate_of_fails hrepo he).1.symm.trans h) nofun, ?_⟩
      rw [(rotate_of_fails hrepo he).2, hv]
      exact hholds
  · rw [RefreshTokenUseCase.execute, Task.run_bind_of_error _ hfound]
    exact ⟨nofun, (congrFun hkeeps x.id).trans hx.holds⟩

/-- **Otherwise the session is revoked**, whatever fails behind that. -/
theorem afterExecute_of_revoked (tokens : TokenService) (hrepo : repo.Lawful)
    (hx : Valid repo params.refreshToken m.checked w.sessions x)
    (hrevoked : ¬ RevocationFails host repo params.refreshToken w) :
    ∃ revokedAt, repo.get? (afterExecute host repo tokens params m w).2.sessions x.id =
      some (x.revoke revokedAt) := by
  unfold RevocationFails at hrevoked
  push Not at hrevoked
  obtain ⟨y, w', user, v, hfound, hloaded, hactive, hgoes⟩ := hrevoked
  obtain ⟨s', hkeeps, hfound' | ⟨e, hfound'⟩⟩ := run_findByRefreshToken host hrepo hx
  · obtain ⟨hy, rfl⟩ := Prod.mk.inj (hfound.symm.trans hfound')
    obtain rfl := Option.some.inj (Except.ok.inj hy)
    have hholds : repo.get? s' y.id = some y := (congrFun hkeeps y.id).trans hx.holds
    rw [afterExecute, run_execute_of_found hx hfound]
    obtain ⟨hv, ⟨hnone, -⟩ | ⟨user', huser, -, hrun⟩⟩ := run_loadAndRotate hloaded
    · exact nomatch (hnone user rfl).symm.trans hactive
    · rw [hrun]
      refine rotate_of_revoked hrepo ?_ hgoes
      rw [SessionRepository.Holds, hv]
      exact hholds
  · exact nomatch (Prod.mk.inj (hfound.symm.trans hfound')).1

end

/-! ## Both implementations -/

section

open Authentication

/-- **A refresh that fails** up to the operation that revokes the session leaves it unrevoked;
once that operation has gone through it is revoked, whatever fails behind it. -/
theorem failedRefresh :
    (∀ (host : SessionHost) (config : AuthConfig) (refreshToken : String)
        (userAgent ipAddress : Option String) (m : AuthService.Rotation) (w : SessionWorld)
        (userId value : String) (s : Authentication.Session),
      Presented host refreshToken userId value m.queried w s →
      (CutBefore host userId value m.queried w →
        (∃ e, (afterRefresh host config refreshToken userAgent ipAddress m w).1 = .error e) ∧
          (afterRefresh host config refreshToken userAgent ipAddress m w).2.sessions.get? s.id =
            some s) ∧
      (¬ CutBefore host userId value m.queried w →
        (afterRefresh host config refreshToken userAgent ipAddress m w).2.sessions.get? s.id =
          some (s.revoke m.revoked))) ∧
    ∀ (S : Type) (host : Host) (repo : SessionRepository S) (tokens : TokenService)
        (params : Refresh) (m : RefreshMoment) (w : RefreshWorld S) (x : SessionSnapshot),
      repo.Lawful → Valid repo params.refreshToken m.checked w.sessions x →
      (RevocationFails host repo params.refreshToken w →
        (∀ pair, (afterExecute host repo tokens params m w).1 ≠ .ok (.ok pair)) ∧
          repo.get? (afterExecute host repo tokens params m w).2.sessions x.id = some x) ∧
      (¬ RevocationFails host repo params.refreshToken w →
        ∃ revokedAt, repo.get? (afterExecute host repo tokens params m w).2.sessions x.id =
          some (x.revoke revokedAt)) := by
  constructor
  · intro host config refreshToken userAgent ipAddress m w userId value s h
    refine ⟨fun hcut => ?_, fun hcalm => ?_⟩
    · obtain ⟨herror, hsame⟩ := afterRefresh_of_cutBefore config userAgent ipAddress h hcut
      refine ⟨herror, ?_⟩
      rw [hsame]
      exact Table.get?_of_mem h.owner.1
    · exact afterRefresh_of_not_cutBefore config userAgent ipAddress h hcalm
  · intro S host repo tokens params m w x hrepo hx
    exact ⟨afterExecute_of_fails tokens hrepo hx, afterExecute_of_revoked tokens hrepo hx⟩

/-- The refresh token of a user, for the runs on fixed inputs. -/
def hoppersToken : String := hopper.text ++ ".issued"

/-- The readings and the draws of its refresh. -/
def hoppersRotation : AuthService.Rotation := ⟨1, 1, ⟨"j2", "next", 1⟩⟩

/-- Her store, when the creation of the session fails. -/
def noCreation : SessionWorld := { hoppersWorld with faults := fun k => k == 5 }

theorem presented_hoppersToken :
    Presented plainSessionHost hoppersToken hopper.text "issued" 1 noCreation hoppersSession where
  userPart := by decide +kernel
  valuePart := by decide +kernel
  first := by decide +kernel

/-- Her configuration. -/
def hoppersConfig : AuthConfig := ⟨900, fun now => now + 604800000⟩

/-- A session of a user of the use case. -/
def gracesSession : SessionSnapshot := ⟨"s1", grace.value, "old", none, none, 604800000, 0, none⟩

/-- Her store, where the creation of a session fails. -/
def gracesWorld : RefreshWorld SessionTable where
  users := calmWorld gracesDb
  sessions :=
    { sessions := (Table.empty SessionSnapshot.id).put gracesSession
      tokens := List.nodup_singleton _
      clock := 1
      ids := fun _ => "s2"
      faults := fun k => k == 2
      performed := 0 }

/-- Her parameters. -/
def gracesRefresh : Refresh := ⟨"old", none, none⟩

theorem valid_gracesSession : Valid tableRepository "old" 1 gracesWorld.sessions gracesSession where
  holds := Table.get?_put_self _ _
  token := rfl
  unrevoked := rfl
  unexpired := by decide

theorem not_cutBefore_noCreation : ¬ CutBefore plainSessionHost hopper.text "issued" 1 noCreation := by
  rintro ⟨k, hk, hfault⟩
  have hlast : operationsBefore plainSessionHost hopper.text "issued" 1 noCreation = 2 := by
    decide +kernel
  have hfive : k = 5 := by simpa [noCreation, hoppersWorld] using hfault
  omega

/-- In that store her session can be revoked. -/
theorem not_revocationFails_gracesWorld :
    ¬ RevocationFails plainHost tableRepository "old" gracesWorld := by
  intro h
  have hloaded : (Task.run (RefreshOp.exec plainHost tableRepository)
      (loadUser plainHost gracesSession.userId) (Task.run (RefreshOp.exec plainHost tableRepository)
        (RefreshTask.findByRefreshToken "old") gracesWorld).2).1 =
          .ok (.ok (UserRepositoryImpl.entity plainHost gracesRow (by decide +kernel))) := by
    decide +kernel
  obtain ⟨e, he⟩ := h gracesSession _ _ _ rfl (Prod.ext hloaded rfl) rfl
  exact nomatch he

/-- Without a store for the new session the old one is lost. -/
theorem failedRefresh_noCreation :
    (afterRefresh plainSessionHost hoppersConfig hoppersToken none none hoppersRotation
        noCreation).2.sessions.get? hoppersSession.id =
          some (hoppersSession.revoke hoppersRotation.revoked) ∧
      ∃ revokedAt, tableRepository.get? (afterExecute plainHost tableRepository plainTokens
        gracesRefresh ⟨1, "new", 1⟩ gracesWorld).2.sessions gracesSession.id =
          some (gracesSession.revoke revokedAt) :=
  ⟨(failedRefresh.1 _ _ _ _ _ _ _ _ _ _ presented_hoppersToken).2 not_cutBefore_noCreation,
    (failedRefresh.2 _ _ _ _ _ _ _ _ tableRepository_lawful valid_gracesSession).2
      not_revocationFails_gracesWorld⟩

/-- **The session does not survive** a failure behind its revocation, in neither of them. -/
theorem not_sessionSurvives :
    (¬ ∀ (host : SessionHost) (config : AuthConfig) (refreshToken : String)
        (userAgent ipAddress : Option String) (m : AuthService.Rotation) (w : SessionWorld)
        (userId value : String) (s : Authentication.Session),
      Presented host refreshToken userId value m.queried w s →
      (∃ account, w.users s.userId = some account ∧ account.status = .active) →
      (∃ e, (afterRefresh host config refreshToken userAgent ipAddress m w).1 = .error e) →
        ∃ t, (afterRefresh host config refreshToken userAgent ipAddress m w).2.sessions.get? s.id =
          some t ∧ t.revokedAt = none) ∧
    ¬ ∀ (S : Type) (host : Host) (repo : SessionRepository S) (tokens : TokenService)
        (params : Refresh) (m : RefreshMoment) (w : RefreshWorld S) (x : SessionSnapshot),
      repo.Lawful → Valid repo params.refreshToken m.checked w.sessions x →
      (∀ pair, (afterExecute host repo tokens params m w).1 ≠ .ok (.ok pair)) →
        ∃ y, repo.get? (afterExecute host repo tokens params m w).2.sessions x.id = some y ∧
          y.revokedAt = none := by
  constructor
  · intro h
    obtain ⟨t, ht, hopen⟩ := h plainSessionHost hoppersConfig hoppersToken none none hoppersRotation
      noCreation hopper.text "issued" hoppersSession presented_hoppersToken
      ⟨⟨hopper, "hopper@example.com", .active, []⟩, by decide +kernel, rfl⟩
      ⟨unreachable, by decide +kernel⟩
    have hgone : (afterRefresh plainSessionHost hoppersConfig hoppersToken none none hoppersRotation
        noCreation).2.sessions.get? hopper = some (hoppersSession.revoke 1) := by
      decide +kernel
    obtain rfl := Option.some.inj (ht.symm.trans hgone)
    exact nomatch hopen
  · intro h
    have hthrows : (afterExecute plainHost tableRepository plainTokens gracesRefresh ⟨1, "new", 1⟩
        gracesWorld).1 = .error outage := by
      decide +kernel
    obtain ⟨y, hy, hopen⟩ := h SessionTable plainHost tableRepository plainTokens gracesRefresh
      ⟨1, "new", 1⟩ gracesWorld gracesSession tableRepository_lawful valid_gracesSession
      fun pair hpair => nomatch hthrows.symm.trans hpair
    have hgone : tableRepository.get? (afterExecute plainHost tableRepository plainTokens
        gracesRefresh ⟨1, "new", 1⟩ gracesWorld).2.sessions "s1" = some (gracesSession.revoke 1) := by
      decide +kernel
    obtain rfl := Option.some.inj (hy.symm.trans hgone)
    exact nomatch hopen

end

end EnterpriseSystem.Application
