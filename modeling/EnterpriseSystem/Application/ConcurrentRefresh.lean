import EnterpriseSystem.Application.FailedRefresh
import EnterpriseSystem.Base.Gate

/-!
# The use case, several times at once

Calls of `RefreshTokenUseCase.execute` that present one token, interleaved at their awaits.

* `Keeps` — no session goes, its token stays, and a revoked one does not come back.
* `Spent` — the session of the token is revoked.
* `revocationGate` — the revocation as a gate on the way to the new tokens.
* `oneTimeUse_execute` — one call at most returns tokens where no call revokes the session after
  another has.
-/

namespace EnterpriseSystem.Application

open Identity Relational Concurrency RefreshTokenUseCase

section

variable {S : Type} {host : Host} {repo : SessionRepository S}

/-! ## The sessions -/

/-- A later version of a session. -/
structure SessionSnapshot.Later (x y : SessionSnapshot) : Prop where
  refreshToken : y.refreshToken = x.refreshToken
  revoked : x.revokedAt ≠ none → y.revokedAt ≠ none

theorem SessionSnapshot.Later.refl (x : SessionSnapshot) : x.Later x := ⟨rfl, fun h => h⟩

theorem SessionSnapshot.Later.trans {x y z : SessionSnapshot} (h : x.Later y) (h' : y.Later z) :
    x.Later z :=
  ⟨h'.refreshToken.trans h.refreshToken, fun hx => h'.revoked (h.revoked hx)⟩

theorem SessionSnapshot.later_revoke (x : SessionSnapshot) (revokedAt : Date) :
    x.Later (x.revoke revokedAt) :=
  ⟨rfl, fun _ => Option.some_ne_none _⟩

/-- No session goes, and none that is revoked comes back. -/
def Keeps (repo : SessionRepository S) (w w' : RefreshWorld S) : Prop :=
  ∀ id x, repo.get? w.sessions id = some x → ∃ y, repo.get? w'.sessions id = some y ∧ x.Later y

theorem keeps_of_eq {w w' : RefreshWorld S} (h : repo.get? w'.sessions = repo.get? w.sessions) :
    Keeps repo w w' :=
  fun _ x hx => ⟨x, h ▸ hx, .refl x⟩

theorem Keeps.refl (w : RefreshWorld S) : Keeps repo w w := keeps_of_eq rfl

theorem Keeps.trans {w w' w'' : RefreshWorld S} (h : Keeps repo w w') (h' : Keeps repo w' w'') :
    Keeps repo w w'' := by
  intro id x hx
  obtain ⟨y, hy, hlater⟩ := h id x hx
  obtain ⟨z, hz, hlater'⟩ := h' id y hy
  exact ⟨z, hz, hlater.trans hlater'⟩

/-- **Every operation** keeps the sessions. -/
theorem keeps_exec (hrepo : repo.Lawful) (o : RefreshOp) (w : RefreshWorld S) :
    Keeps repo w (o.exec host repo w).2 := by
  cases o with
  | user o => exact keeps_of_eq rfl
  | session o =>
    show ∀ id x, repo.get? w.sessions id = some x →
      ∃ y, repo.get? (repo.exec o w.sessions).2 id = some y ∧ x.Later y
    intro id x hx
    rcases hexec : repo.exec o w.sessions with ⟨r, s'⟩
    cases r with
    | error e => exact ⟨x, (congrFun (hrepo.error_keeps _ _ _ _ hexec) id).trans hx, .refl x⟩
    | ok a =>
      cases o with
      | findByRefreshToken refreshToken =>
        have hkeeps := hrepo.find_keeps w.sessions refreshToken
        rw [hexec] at hkeeps
        exact ⟨x, (congrFun hkeeps id).trans hx, .refl x⟩
      | create session =>
        obtain ⟨hnew, hafter, -⟩ := hrepo.create_ok _ _ _ _ hexec
        refine ⟨x, ?_, .refl x⟩
        have hid : id ≠ a.id := by
          rintro rfl
          rw [hx] at hnew
          cases hnew
        rw [hafter, Function.update_of_ne hid]
        exact hx
      | revoke id' =>
        obtain ⟨revokedAt, hafter⟩ := hrepo.revoke_ok _ _ _ hexec
        by_cases hid : id = id'
        · subst hid
          refine ⟨x.revoke revokedAt, ?_, x.later_revoke revokedAt⟩
          rw [hafter, Function.update_self, hx]
          rfl
        · refine ⟨x, ?_, .refl x⟩
          rw [hafter, Function.update_of_ne hid]
          exact hx
      | revokeAllForUser userId =>
        obtain ⟨revokedAt, hafter⟩ := hrepo.revokeAll_ok _ _ _ _ hexec
        refine ⟨if x.userId = userId ∧ x.revokedAt = none then x.revoke revokedAt else x, ?_, ?_⟩
        · rw [hafter]
          exact congrArg _ hx
        · split_ifs
          · exact x.later_revoke revokedAt
          · exact .refl x

/-! ## The gate -/

/-- The session of the token is revoked. -/
def Spent (repo : SessionRepository S) (refreshToken : String) (w : RefreshWorld S) : Prop :=
  ∃ x, repo.Holds w.sessions x ∧ x.refreshToken = refreshToken ∧ x.revokedAt ≠ none

theorem Spent.keeps (hrepo : repo.Lawful) {refreshToken : String} {w w' : RefreshWorld S}
    (h : Spent repo refreshToken w) (hkeeps : Keeps repo w w') : Spent repo refreshToken w' := by
  obtain ⟨x, hx, htoken, hrevoked⟩ := h
  obtain ⟨y, hy, hlater⟩ := hkeeps x.id x hx
  have hy' : repo.get? w'.sessions y.id = some y := (hrepo.key _ _ _ hy).symm ▸ hy
  exact ⟨y, hy', hlater.refreshToken.trans htoken, hlater.revoked hrevoked⟩

/-- The revocation of the session of the token, before the new one. -/
def revocationGate (repo : SessionRepository S) (hrepo : repo.Lawful) (refreshToken : String) :
    Gate (RefreshWorld S) RefreshOp where
  passes
    | .session (.revoke _) => true
    | _ => false
  issues
    | .session (.create _) => true
    | _ => false
  Shut := Spent repo refreshToken
  Rely := Keeps repo
  refl := Keeps.refl
  trans := Keeps.trans
  stays hkeeps h := h.keeps hrepo hkeeps

/-- Tokens are returned. -/
def HandsOut (r : Result AuthTokens) : Prop := ∃ tokens, r = .ok tokens

theorem not_handsOut_fail (error : DomainError) : ¬ HandsOut (.fail error) := by
  rintro ⟨tokens, h⟩
  cases h

/-- The lookup of the user awaits operations on users only. -/
theorem only_loadUser (userId : String) :
    Task.Only (fun o => ∃ o', o = RefreshOp.user o') (loadUser host userId) := by
  have huser : ∀ {α : Type} (p : UserTask α),
      Task.Only (fun o => ∃ o', o = RefreshOp.user o') (RefreshTask.user p) := by
    intro α p
    show (Prog.translate _ (ExceptT.run p)).Only _
    induction ExceptT.run p with
    | ret r => trivial
    | op o k ih => exact ⟨⟨o, rfl⟩, ih⟩
  refine .tryCatch (.bind (.ofExcept _) fun id => .bind (huser _) fun user => .pure _) fun error => ?_
  cases error <;> first | exact .pure _ | exact .throw _

variable {hrepo : repo.Lawful} {tokens : TokenService} {params : Refresh} {m : RefreshMoment}
  {w : RefreshWorld S}

/-- A call that returns a failure is not served. -/
theorem before_fail (error : DomainError) :
    (revocationGate repo hrepo params.refreshToken).Before (RefreshOp.exec host repo) HandsOut
      (ExceptT.run (pure (.fail error) : RefreshTask (Result AuthTokens))) w := by
  intro r hr
  obtain rfl := Except.ok.inj hr
  exact not_handsOut_fail error

/-- **Once the user is loaded**, the call stands before the gate. -/
theorem before_rotate {x : SessionSnapshot} {user : User}
    (hfound : ∃ y, repo.get? w.sessions x.id = some y ∧ y.refreshToken = params.refreshToken) :
    (revocationGate repo hrepo params.refreshToken).Before (RefreshOp.exec host repo) HandsOut
      (ExceptT.run (rotate tokens params m x user)) w := by
  rw [rotate_eq]
  refine Gate.before_gate rfl (fun w' hkeeps => ⟨keeps_exec hrepo _ w', ?_⟩) fun _ => ?_
  · show (∃ e, (repo.exec (.revoke x.id) w'.sessions).1 = .error e) ∨ true = true ∧
      Spent repo params.refreshToken { w' with sessions := (repo.exec (.revoke x.id) w'.sessions).2 }
    rcases hrevoke : repo.exec (.revoke x.id) w'.sessions with ⟨r, s'⟩
    cases r with
    | error e => exact Or.inl ⟨e, rfl⟩
    | ok u =>
      obtain ⟨y, hy, htoken⟩ := hfound
      obtain ⟨z, hz, hlater⟩ := hkeeps x.id y hy
      have hid : z.id = x.id := hrepo.key _ _ _ hz
      obtain ⟨revokedAt, hafter⟩ := hrepo.revoke_ok _ _ _ hrevoke
      refine Or.inr ⟨rfl, z.revoke revokedAt, ?_, hlater.refreshToken.trans htoken,
        Option.some_ne_none _⟩
      show repo.get? s' z.id = _
      rw [hafter, hid, Function.update_self, hz]
      rfl
  · refine ⟨rfl, fun w => keeps_exec hrepo _ w, fun _ => rfl, fun r => ?_⟩
    cases r <;> trivial

/-- **A call stands before the gate** when it begins. -/
theorem before_execute :
    (revocationGate repo hrepo params.refreshToken).Before (RefreshOp.exec host repo) HandsOut
      (ExceptT.run (RefreshTokenUseCase.execute host tokens params m)) w := by
  rw [RefreshTokenUseCase.execute]
  refine Gate.before_bind fun w₁ _ => ⟨rfl, keeps_exec hrepo _ w₁, fun found hfind => ?_⟩
  cases found with
  | none => exact before_fail _
  | some x =>
    have hexec : repo.exec (.findByRefreshToken params.refreshToken) w₁.sessions =
        (.ok (some x), (repo.exec (.findByRefreshToken params.refreshToken) w₁.sessions).2) :=
      Prod.ext hfind rfl
    obtain ⟨hx, htoken⟩ := hrepo.find_some _ _ _ _ hexec
    have hrow : repo.get? (repo.exec (.findByRefreshToken params.refreshToken) w₁.sessions).2 x.id =
        some x := (congrFun (hrepo.find_keeps _ _) x.id).trans hx
    by_cases hrevoked : x.revokedAt.isSome = true
    · simp only [hrevoked, if_true]
      exact Gate.before_bind fun w₂ _ => ⟨rfl, keeps_exec hrepo _ w₂, fun _ _ => before_fail _⟩
    by_cases hexpired : x.expiresAt < m.checked
    · simp only [hrevoked, hexpired, if_true, Bool.false_eq_true, if_false]
      exact before_fail _
    simp only [hrevoked, hexpired, Bool.false_eq_true, if_false]
    refine Gate.before_bind (Gate.leads_of_only ((only_loadUser x.userId).mono ?_) ?_)
    · rintro o ⟨o', rfl⟩
      exact ⟨rfl, fun w => keeps_exec hrepo _ w⟩
    · intro r w₂ hkeeps loaded hr
      cases loaded with
      | error failure => exact before_fail failure
      | ok user =>
        obtain ⟨y, hy, hlater⟩ := hkeeps x.id x hrow
        by_cases hactive : user.isActive = true
        · simp only [hactive, if_true]
          exact before_rotate ⟨y, hy, hlater.refreshToken.trans htoken⟩
        · simp only [hactive, if_false, Bool.false_eq_true]
          exact before_fail _

end

/-! ## Once -/

section

variable {ι S : Type}

/-- Calls of the use case, interleaved. -/
abbrev RefreshSystem (ι S : Type) : Type :=
  System ι (RefreshWorld S) RefreshOp RefreshOp.Ans Thrown (Result AuthTokens)

/-- A step of a run of them. -/
abbrev RefreshStep (ι S : Type) : Type := RefreshSystem ι S × System.Label ι × RefreshSystem ι S

/-- In this step, a call asks for a new session. -/
def AsksForSession (p : RefreshStep ι S) : Prop :=
  ∃ i session, p.2.1 = some i ∧ p.1.Performs i (.session (.create session))

/-- A call revokes a session only while the one of the token is not revoked. -/
def RevokesFirst (repo : SessionRepository S) (refreshToken : String) (σ : RefreshSystem ι S)
    (l : System.Label ι) : Prop :=
  ∀ i id, l = some i → σ.Performs i (.session (.revoke id)) → ¬ Spent repo refreshToken σ.shared

/-- Calls of `execute` with one token, before their first operation. -/
def executeAll (host : Host) (tokens : TokenService) (calls : ι → Refresh × RefreshMoment)
    (w : RefreshWorld S) : RefreshSystem ι S :=
  System.start w fun i => RefreshTokenUseCase.execute host tokens (calls i).1 (calls i).2

variable [DecidableEq ι] {host : Host} {repo : SessionRepository S} {tokens : TokenService}
  {calls : ι → Refresh × RefreshMoment} {w : RefreshWorld S} {steps : List (RefreshStep ι S)}
  {σ : RefreshSystem ι S}

/-- **A token is used once**, whatever the interleaving and whatever fails, where nobody revokes
after another: one call at most returns tokens, and one session at most is asked for. -/
theorem oneTimeUse_execute (hrepo : repo.Lawful) {refreshToken : String}
    (hcalls : ∀ i, (calls i).1.refreshToken = refreshToken)
    (h : Run (System.Step (RefreshOp.exec host repo) (Keeps repo)) (RevokesFirst repo refreshToken)
      (executeAll host tokens calls w) steps σ) :
    (∀ i j pair pair', σ.result? i = some (.ok (.ok pair)) → σ.result? j = some (.ok (.ok pair')) →
      i = j) ∧ steps.Pairwise fun p q => ¬ (AsksForSession p ∧ AsksForSession q) := by
  have hbefore : ∀ i, (revocationGate repo hrepo refreshToken).Before (RefreshOp.exec host repo)
      HandsOut (ExceptT.run (RefreshTokenUseCase.execute host tokens (calls i).1 (calls i).2)) w := by
    intro i
    rw [← hcalls i]
    exact before_execute
  have hrespected : ∀ (σ : RefreshSystem ι S) l, RevokesFirst repo refreshToken σ l →
      (revocationGate repo hrepo refreshToken).Respected σ l := by
    intro σ l hfirst i o hl hperforms hpasses
    cases o with
    | user o => cases hpasses
    | session o =>
      cases o with
      | revoke id => exact hfirst i id hl hperforms
      | _ => cases hpasses
  obtain ⟨hhands, hsessions⟩ := Gate.once hbefore hrespected h
  refine ⟨fun i j pair pair' hi hj => hhands i j _ _ hi ⟨pair, rfl⟩ hj ⟨pair', rfl⟩, ?_⟩
  refine hsessions.imp fun hboth hasks => hboth ?_
  obtain ⟨⟨i, session, hi, hperforms⟩, ⟨j, session', hj, hperforms'⟩⟩ := hasks
  exact ⟨⟨i, _, hi, hperforms, rfl⟩, ⟨j, _, hj, hperforms', rfl⟩⟩

end

/-! ## One after the other -/

/-- Two refreshes with the token of the one session. -/
def twoRefreshes (first : Bool) : Refresh × RefreshMoment :=
  (gracesRefresh, ⟨1, if first then "new" else "last", 1⟩)

/-- They are about to start, in a store where nothing fails. -/
def executedTwice : RefreshSystem Bool SessionTable :=
  executeAll plainHost plainTokens twoRefreshes
    { gracesWorld with sessions := { gracesWorld.sessions with faults := fun _ => false } }

/-- The first call runs to its end, then the second. -/
def executedInTurn : List Bool := List.replicate 4 true ++ List.replicate 2 false

/-- The step revokes no session, or none is revoked yet. -/
def revokesAlone {ι : Type} (σ : RefreshSystem ι SessionTable) : System.Label ι → Bool
  | none => true
  | some i =>
    match σ.tasks i with
    | .op (.session (.revoke _)) _ => σ.shared.sessions.sessions.rows.all fun x => x.revokedAt.isNone
    | _ => true

theorem revokesFirst_of_revokesAlone {ι : Type} {refreshToken : String}
    {σ : RefreshSystem ι SessionTable} {l : System.Label ι} (h : revokesAlone σ l = true) :
    RevokesFirst tableRepository refreshToken σ l := by
  rintro i id rfl ⟨k, hop⟩ ⟨x, hx, -, hrevoked⟩
  simp only [revokesAlone, hop, List.all_eq_true] at h
  exact hrevoked (Option.isNone_iff_eq_none.1 (h x (Table.mem_of_get? hx)))

/-- The theorem at work: the second call is refused. -/
theorem oneTimeUse_executedTwice :
    let exec := RefreshOp.exec plainHost tableRepository
    let σ := executedInTurn.foldl (System.next exec) executedTwice
    (∀ i j pair pair', σ.result? i = some (.ok (.ok pair)) → σ.result? j = some (.ok (.ok pair')) →
      i = j) ∧ (executedTwice.schedule exec executedInTurn).Pairwise
        (fun p q => ¬ (AsksForSession p ∧ AsksForSession q)) ∧
      (σ.result? true).map Except.isOk = some true ∧
      σ.result? false = some (.ok (.fail refreshTokenRevoked)) := by
  intro exec σ
  have halone : ((executedTwice.schedule exec executedInTurn).all
      fun p => revokesAlone p.1 p.2.1) = true := by decide +kernel
  have hrun : Run (System.Step exec (Keeps tableRepository)) (RevokesFirst tableRepository "old")
      executedTwice (executedTwice.schedule exec executedInTurn) σ :=
    Run.restrict (System.run_schedule (by decide +kernel)) fun p hp =>
      revokesFirst_of_revokesAlone (List.all_eq_true.1 halone p hp)
  have hcalls : ∀ first, (twoRefreshes first).1.refreshToken = "old" := fun _ => rfl
  have honce := oneTimeUse_execute tableRepository_lawful hcalls hrun
  exact ⟨honce.1, honce.2, by decide +kernel, by decide +kernel⟩

end EnterpriseSystem.Application
