import EnterpriseSystem.Application.FailedRefresh
import EnterpriseSystem.Authentication.Reuse

/-!
# Which tokens end all sessions

The two implementations of a refresh revoke all sessions of a user when a refresh token is used
again.

* `Terminates`, `UsedAgain` — the use case ends all sessions of a user; the token is that of a
  revoked session.
* `terminates_iff` — the use case asks the store, and so it ends them for no other token.
* `detectsReuse_iff` — both implementations.
-/

namespace EnterpriseSystem.Application

open Identity Relational Concurrency RefreshTokenUseCase

/-! ## The use case -/

section

variable {S : Type} {host : Host} {repo : SessionRepository S} {tokens : TokenService}
  {params : Refresh} {m : RefreshMoment} {w : RefreshWorld S} {x : SessionSnapshot}

/-- The sessions with those of a user revoked. -/
def allRevoked (userId : String) (revokedAt : Date) (sessions : String → Option SessionSnapshot) :
    String → Option SessionSnapshot := fun id =>
  (sessions id).map fun x => if x.userId = userId ∧ x.revokedAt = none then x.revoke revokedAt else x

/-- The use case takes the token for one that is used again, and the sessions of its user are
revoked behind it. -/
def Terminates (host : Host) (repo : SessionRepository S) (tokens : TokenService)
    (params : Refresh) (m : RefreshMoment) (w : RefreshWorld S) : Prop :=
  (afterExecute host repo tokens params m w).1 = .ok (.fail refreshTokenRevoked) ∧
    ∃ x revokedAt, repo.Holds w.sessions x ∧ x.refreshToken = params.refreshToken ∧
      repo.get? (afterExecute host repo tokens params m w).2.sessions =
        allRevoked x.userId revokedAt (repo.get? w.sessions)

/-- The token is that of a revoked session of the store. -/
structure UsedAgain (repo : SessionRepository S) (refreshToken : String) (s : S)
    (x : SessionSnapshot) : Prop where
  holds : repo.Holds s x
  token : x.refreshToken = refreshToken
  revoked : x.revokedAt ≠ none

/-- The query returns, and so does the operation that revokes the sessions of the user. -/
def Returns (repo : SessionRepository S) (refreshToken userId : String) (s : S) : Prop :=
  ∃ found s' n s'', repo.exec (.findByRefreshToken refreshToken) s = (.ok found, s') ∧
    repo.exec (.revokeAllForUser userId) s' = (.ok n, s'')

theorem userGone_ne (e : Thrown) : userGone e ≠ refreshTokenRevoked := by
  intro h
  have hcode : "USER_NOT_FOUND" = "REFRESH_TOKEN_REVOKED" := congrArg DomainError.code h
  exact absurd hcode (by decide)

/-- A failure to load the user is no sign of reuse. -/
theorem loadUser_ne {userId : String} {failure : DomainError} {v : RefreshWorld S}
    (h : Task.run (RefreshOp.exec host repo) (loadUser host userId) w = (.ok (.error failure), v)) :
    failure ≠ refreshTokenRevoked := by
  rw [loadUser, Task.run_tryCatch] at h
  split at h
  · rename_i r w' hrun
    obtain ⟨hr, -⟩ := Prod.mk.inj h
    obtain rfl := Except.ok.inj hr
    obtain ⟨id, u, -, hrest⟩ := (Task.run_bind_eq_ok _).1 hrun
    obtain ⟨user, u', -, hreturn⟩ := (Task.run_bind_eq_ok _).1 hrest
    exact nomatch hreturn
  · rename_i e w' hrun
    cases e with
    | userNotFound _ =>
      obtain ⟨hr, -⟩ := Prod.mk.inj h
      obtain rfl := Except.error.inj (Except.ok.inj hr)
      exact userGone_ne _
    | _ => exact nomatch h

/-- Nor is what comes behind it. -/
theorem loadAndRotate_ne :
    (Task.run (RefreshOp.exec host repo) (loadAndRotate host tokens params m x) w).1 ≠
      .ok (.fail refreshTokenRevoked) := by
  intro h
  rw [loadAndRotate] at h
  rcases hloaded : Task.run (RefreshOp.exec host repo) (loadUser host x.userId) w
    with ⟨e | failure | user, v⟩
  · rw [Task.run_bind_of_error _ hloaded] at h
    cases h
  · rw [Task.run_bind_of_ok _ hloaded] at h
    exact loadUser_ne hloaded (Result.fail.inj (Except.ok.inj h))
  · rw [Task.run_bind_of_ok _ hloaded] at h
    dsimp only at h
    cases hactive : user.isActive with
    | false =>
      rw [hactive] at h
      exact absurd (Result.fail.inj (Except.ok.inj h)) (by decide)
    | true =>
      rw [hactive, if_pos rfl, rotate_eq] at h
      obtain ⟨_, v', -, hcreate⟩ := (Task.run_bind_eq_ok _).1 (Prod.ext h rfl)
      obtain ⟨_, v'', -, hreturn⟩ := (Task.run_bind_eq_ok _).1 hcreate
      cases hreturn

/-- The use case, once the query has answered. -/
theorem afterExecute_of_find {r : Except Thrown (Option SessionSnapshot)} {s' : S}
    (hfind : repo.exec (.findByRefreshToken params.refreshToken) w.sessions = (r, s')) :
    afterExecute host repo tokens params m w =
      match r with
      | .error e => (.error e, { w with sessions := s' })
      | .ok none => (.ok (.fail tokenInvalid), { w with sessions := s' })
      | .ok (some x) =>
        if x.revokedAt.isSome then
          match repo.exec (.revokeAllForUser x.userId) s' with
          | (.error e, s'') => (.error e, { w with sessions := s'' })
          | (.ok _, s'') => (.ok (.fail refreshTokenRevoked), { w with sessions := s'' })
        else if x.expiresAt < m.checked then
          (.ok (.fail tokenExpired), { w with sessions := s' })
        else
          Task.run (RefreshOp.exec host repo) (loadAndRotate host tokens params m x)
            { w with sessions := s' } := by
  have hrun : Task.run (RefreshOp.exec host repo)
      (RefreshTask.findByRefreshToken params.refreshToken) w = (r, { w with sessions := s' }) :=
    congrArg (fun q => (q.1, { w with sessions := q.2 })) hfind
  rw [afterExecute, RefreshTokenUseCase.execute]
  rcases r with e | - | x
  · rw [Task.run_bind_of_error _ hrun]
  · rw [Task.run_bind_of_ok _ hrun]
    rfl
  · rw [Task.run_bind_of_ok _ hrun]
    dsimp only
    split_ifs with hrevoked hexpired
    · have hall : Task.run (RefreshOp.exec host repo) (RefreshTask.revokeAllForUser x.userId)
          { w with sessions := s' } = ((repo.exec (.revokeAllForUser x.userId) s').1,
            { w with sessions := (repo.exec (.revokeAllForUser x.userId) s').2 }) := rfl
      rcases hexec : repo.exec (.revokeAllForUser x.userId) s' with ⟨e | n, s''⟩
      · rw [hexec] at hall
        rw [Task.run_bind_of_error _ hall]
      · rw [hexec] at hall
        rw [Task.run_bind_of_ok _ hall]
        rfl
    · rfl
    · rfl

/-- **The use case ends all sessions** exactly for the token of a revoked session, when the two
operations return. -/
theorem terminates_iff (hrepo : repo.Lawful) :
    Terminates host repo tokens params m w ↔
      ∃ x, UsedAgain repo params.refreshToken w.sessions x ∧
        Returns repo params.refreshToken x.userId w.sessions := by
  constructor
  · rintro ⟨hresult, -⟩
    rcases hfind : repo.exec (.findByRefreshToken params.refreshToken) w.sessions
      with ⟨e | - | x, s'⟩
    · rw [afterExecute_of_find hfind] at hresult
      exact nomatch hresult
    · rw [afterExecute_of_find hfind] at hresult
      exact absurd (Result.fail.inj (Except.ok.inj hresult)) (by decide)
    · rw [afterExecute_of_find hfind] at hresult
      dsimp only at hresult
      obtain ⟨hx, htoken⟩ := hrepo.find_some _ _ _ _ hfind
      split_ifs at hresult with hrevoked hexpired
      · rcases hall : repo.exec (.revokeAllForUser x.userId) s' with ⟨e | n, s''⟩
        · rw [hall] at hresult
          exact nomatch hresult
        · refine ⟨x, ⟨hx, htoken, fun hnone => ?_⟩, _, s', n, s'', hfind, hall⟩
          rw [hnone] at hrevoked
          exact nomatch hrevoked
      · exact absurd (Result.fail.inj (Except.ok.inj hresult)) (by decide)
      · exact absurd hresult loadAndRotate_ne
  · rintro ⟨x, hx, found, s', n, s'', hfind, hall⟩
    obtain rfl : found = some x := by
      cases found with
      | none => exact absurd hx.token (hrepo.find_none _ _ _ hfind x hx.holds)
      | some y =>
        obtain ⟨hy, htoken⟩ := hrepo.find_some _ _ _ _ hfind
        rw [hrepo.unique _ _ _ hx.holds hy (hx.token.trans htoken.symm)]
    have hrevoked : x.revokedAt.isSome = true := Option.isSome_iff_ne_none.2 hx.revoked
    have hkeeps := hrepo.find_keeps w.sessions params.refreshToken
    rw [hfind] at hkeeps
    obtain ⟨revokedAt, hafter⟩ := hrepo.revokeAll_ok _ _ _ _ hall
    have hresult : afterExecute host repo tokens params m w =
        (.ok (.fail refreshTokenRevoked), { w with sessions := s'' }) := by
      rw [afterExecute_of_find hfind]
      dsimp only
      rw [if_pos hrevoked, hall]
    refine ⟨congrArg Prod.fst hresult, x, revokedAt, hx.holds, hx.token, ?_⟩
    rw [hresult, ← hkeeps]
    exact hafter

/-- **The use case detects reuse**: it ends all sessions for the token of a revoked session, and
for no other. -/
def UseCaseDetectsReuse (host : Host) (repo : SessionRepository S) (tokens : TokenService)
    (params : Refresh) (m : RefreshMoment) (w : RefreshWorld S) : Prop :=
  Terminates host repo tokens params m w ↔ ∃ x, UsedAgain repo params.refreshToken w.sessions x

/-- It does so unless an operation fails. -/
theorem useCaseDetectsReuse_iff (hrepo : repo.Lawful) :
    UseCaseDetectsReuse host repo tokens params m w ↔
      ∀ x, UsedAgain repo params.refreshToken w.sessions x →
        Returns repo params.refreshToken x.userId w.sessions := by
  rw [UseCaseDetectsReuse, terminates_iff hrepo]
  constructor
  · intro h x hx
    obtain ⟨y, hy, hreturns⟩ := h.2 ⟨x, hx⟩
    rwa [hrepo.unique _ _ _ hx.holds hy.holds (hx.token.trans hy.token.symm)]
  · intro h
    constructor
    · rintro ⟨x, hx, -⟩
      exact ⟨x, hx⟩
    · rintro ⟨x, hx⟩
      exact ⟨x, hx, h x hx⟩

end

/-! ## Both implementations -/

section

open Authentication

/-- A sign-in, and nothing else. -/
def oneSignIn : List (AuthCall × Surroundings) := [(signIn "j1" "a", calm hopper)]

theorem exactHost_plainSessionHost : ExactHost plainSessionHost where
  uuid text user h := by
    have htext : text = hopper.text := by
      by_contra hne
      exact nomatch (if_neg hne).symm.trans h
    rw [htext]
    decide +kernel
  compare value value' salt := beq_iff_eq

theorem freshValues_oneSignIn : FreshValues oneSignIn where
  plain entry hentry d hd := by
    obtain rfl := List.mem_singleton.1 hentry
    obtain rfl := Option.some.inj hd
    decide +kernel
  once := List.pairwise_singleton _ _

/-- What is drawn in the refresh. -/
def secondDraw : AuthService.Rotation := ⟨1, 1, ⟨"j2", "b", 1⟩⟩

end

end EnterpriseSystem.Application
