import EnterpriseSystem.Authentication.History
import EnterpriseSystem.Authentication.Rotation
import EnterpriseSystem.Base.Gate

/-!
# Refreshing a token several times at once

Calls of `AuthService.refreshTokens` that present one token, interleaved at their awaits.

* `Keeps` — what every operation but the cleanup does to the sessions.
* `Redeemed` — a session that the token matches has been revoked.
* `rotationGate` — the revocation as a gate on the way to the new pair; `before_refreshTokens`
  puts each call in front of it.
* `oneTimeUse_refreshTokens` — the token is used once where no call revokes its session after
  another has.
-/

namespace EnterpriseSystem.Authentication

open Identity Relational Concurrency AuthService

section

variable {host : SessionHost} {w w' : SessionWorld}

/-! ## The sessions -/

/-- A later version of a row. -/
structure Session.Later (s s' : Session) : Prop where
  userId : s'.userId = s.userId
  refreshToken : s'.refreshToken = s.refreshToken
  revoked : s.revokedAt ≠ none → s'.revokedAt ≠ none

theorem Session.Later.refl (s : Session) : s.Later s := ⟨rfl, rfl, fun h => h⟩

theorem Session.Later.trans {s s' s'' : Session} (h : s.Later s') (h' : s'.Later s'') :
    s.Later s'' :=
  ⟨h'.userId.trans h.userId, h'.refreshToken.trans h.refreshToken, fun hs => h'.revoked (h.revoked hs)⟩

theorem Session.later_revoke (s : Session) (revokedAt : Date) : s.Later (s.revoke revokedAt) :=
  ⟨rfl, rfl, fun _ => Option.some_ne_none _⟩

/-- No session goes, and none that is revoked comes back. -/
def Keeps (w w' : SessionWorld) : Prop :=
  ∀ id s, w.sessions.get? id = some s → ∃ s', w'.sessions.get? id = some s' ∧ s.Later s'

theorem keeps_of_eq (h : w'.sessions = w.sessions) : Keeps w w' :=
  fun _ s hs => ⟨s, h ▸ hs, .refl s⟩

theorem Keeps.refl (w : SessionWorld) : Keeps w w := keeps_of_eq rfl

theorem Keeps.trans {w'' : SessionWorld} (h : Keeps w w') (h' : Keeps w' w'') : Keeps w w'' := by
  intro id s hs
  obtain ⟨s', hs', hlater⟩ := h id s hs
  obtain ⟨s'', hs'', hlater'⟩ := h' id s' hs'
  exact ⟨s'', hs'', hlater.trans hlater'⟩

/-- The cleanup. -/
def SessionOp.deletes : SessionOp → Bool
  | .deleteMany _ => true
  | _ => false

/-- **Every operation but the cleanup** keeps the sessions. -/
theorem keeps_exec {o : SessionOp} (ho : o.deletes = false) : Keeps w (o.exec host w).2 := by
  by_cases hdown : w.down = true
  · rw [exec_of_down hdown]
    exact keeps_of_eq rfl
  rw [exec_of_up (Bool.eq_false_iff.2 hdown)]
  cases o with
  | deleteMany query => simp [SessionOp.deletes] at ho
  | bcryptHash value => exact keeps_of_eq rfl
  | bcryptCompare value hash => exact keeps_of_eq rfl
  | findMany query =>
    rw [SessionOp.perform]
    split <;> exact keeps_of_eq rfl
  | findFirst query =>
    rw [SessionOp.perform]
    split <;> exact keeps_of_eq rfl
  | findUser id =>
    rw [SessionOp.perform]
    split <;> exact keeps_of_eq rfl
  | update id revokedAt =>
    rw [SessionOp.perform]
    split
    · rename_i s hrow
      intro id' t ht
      by_cases hid : s.id = id'
      · obtain rfl : s = t := by
          have hkey : s.id = id := Table.key_of_get? hrow
          rw [← hid, hkey, hrow] at ht
          exact Option.some.inj ht
        exact ⟨_, hid ▸ Table.get?_put_self w.sessions (s.revoke revokedAt), s.later_revoke revokedAt⟩
      · exact ⟨t, (Table.get?_put_of_ne w.sessions (a := s.revoke revokedAt) hid).trans ht, .refl t⟩
    · exact keeps_of_eq rfl
  | updateMany query revokedAt =>
    rw [SessionOp.perform]
    split
    · intro id s hs
      refine ⟨_, (Table.get?_update w.sessions _ (Session.revoke revokedAt)
        (Session.id_revoke revokedAt) id).trans (congrArg _ hs), ?_⟩
      dsimp only
      split
      · exact s.later_revoke revokedAt
      · exact .refl s
    · exact keeps_of_eq rfl
  | create data =>
    rw [SessionOp.perform]
    split
    · exact keeps_of_eq rfl
    · rename_i user _
      split_ifs with hunique huser
      · exact keeps_of_eq rfl
      · exact keeps_of_eq rfl
      · intro id s hs
        refine ⟨s, (Table.get?_put_of_ne w.sessions fun hid => ?_).trans hs, .refl s⟩
        simp only [Bool.or_eq_true, not_or, Bool.not_eq_true, Table.contains_eq_false_iff] at hunique
        have hnew : w.sessions.get? id = none := hid ▸ hunique.1
        rw [hs] at hnew
        cases hnew

/-! ## The gate -/

/-- The token is that of the session, as far as the hashes tell. -/
def MatchesToken (host : SessionHost) (refreshToken : String) (s : Session) : Prop :=
  ∃ userId value, userPart refreshToken = some userId ∧ host.uuid? userId = some s.userId ∧
    valuePart refreshToken = some value ∧ matchesHash host value s = true

theorem MatchesToken.later {refreshToken : String} {s s' : Session}
    (h : MatchesToken host refreshToken s) (hlater : s.Later s') :
    MatchesToken host refreshToken s' := by
  obtain ⟨userId, value, huser, huuid, hvalue, hmatch⟩ := h
  refine ⟨userId, value, huser, hlater.userId ▸ huuid, hvalue, ?_⟩
  rw [matchesHash, hlater.refreshToken]
  exact hmatch

/-- A session that the token matches has been revoked since `w₀`. -/
def Redeemed (host : SessionHost) (refreshToken : String) (w₀ w : SessionWorld) : Prop :=
  ∃ id s, w.sessions.get? id = some s ∧ MatchesToken host refreshToken s ∧ s.revokedAt ≠ none ∧
    ∀ s₀, w₀.sessions.get? id = some s₀ → s₀.revokedAt = none

/-- A token that has been redeemed stays so. -/
theorem Redeemed.keeps {refreshToken : String} {w₀ : SessionWorld}
    (h : Redeemed host refreshToken w₀ w) (hkeeps : Keeps w w') :
    Redeemed host refreshToken w₀ w' := by
  obtain ⟨id, s, hs, hmatch, hrevoked, hopen⟩ := h
  obtain ⟨s', hs', hlater⟩ := hkeeps id s hs
  exact ⟨id, s', hs', hmatch.later hlater, hlater.revoked hrevoked, hopen⟩

/-- The revocation of the session of the token, before the new one. -/
def rotationGate (host : SessionHost) (refreshToken : String) (w₀ : SessionWorld) :
    Gate SessionWorld SessionOp where
  passes
    | .update .. => true
    | _ => false
  issues
    | .create _ => true
    | _ => false
  Shut := Redeemed host refreshToken w₀
  Rely := Keeps
  refl := Keeps.refl
  trans := Keeps.trans
  stays hkeeps h := h.keeps hkeeps

variable {config : AuthConfig} {refreshToken : String} {w₀ : SessionWorld}

/-- The loop over the hashes leads to the gate. -/
theorem leads_firstMatch {Q : Except AuthError (Option Session) → SessionWorld → Prop}
    {value : String} {sessions : List Session}
    (hQ : ∀ r w', Keeps w w' →
      (∀ s, r = .ok (some s) → s ∈ sessions ∧ matchesHash host value s = true) → Q r w') :
    (rotationGate host refreshToken w₀).Leads (SessionOp.exec host) Q
      (ExceptT.run (firstMatch value sessions)) w := by
  induction sessions generalizing w with
  | nil =>
    refine hQ _ _ (.refl w) fun s hs => ?_
    cases hs
  | cons t sessions ih =>
    intro w₁ hkeeps
    have hafter : Keeps w ((SessionOp.bcryptCompare value t.refreshToken).exec host w₁).2 :=
      hkeeps.trans (keeps_exec rfl)
    refine ⟨rfl, keeps_exec rfl, ?_⟩
    have hcompare : (SessionOp.bcryptCompare value t.refreshToken).exec host w₁ = _ :=
      exec_bcryptCompare value t.refreshToken
    generalize (SessionOp.bcryptCompare value t.refreshToken).exec host w₁ = r at hafter hcompare ⊢
    obtain ⟨r, w₂⟩ := r
    cases r with
    | error e =>
      refine hQ _ _ hafter fun s hs => ?_
      cases hs
    | ok isMatch =>
      cases isMatch with
      | true =>
        refine hQ _ _ hafter fun s hs => ?_
        obtain rfl : t = s := Option.some.inj (Except.ok.inj hs)
        refine ⟨List.mem_cons_self, ?_⟩
        split_ifs at hcompare
        · cases hcompare
        · exact (Except.ok.inj (Prod.mk.inj hcompare).1).symm
      | false =>
        refine ih fun r w' hkeeps' hfound => hQ r w' (hafter.trans hkeeps') fun s hs => ?_
        exact ⟨List.mem_cons_of_mem t (hfound s hs).1, (hfound s hs).2⟩

/-- What makes the new session is behind the gate. -/
theorem behind_generateTokenPair (userId email : String) (roles : List String)
    (userAgent ipAddress : Option String) (d : Draw) :
    (rotationGate host refreshToken w₀).Behind (SessionOp.exec host) true
      (ExceptT.run (generateTokenPair config userId email roles userAgent ipAddress d)) := by
  refine ⟨rfl, fun w => keeps_exec rfl, by simp [rotationGate], fun r => ?_⟩
  cases r with
  | error e => trivial
  | ok hash =>
    refine ⟨rfl, fun w => keeps_exec rfl, fun _ => rfl, fun r => ?_⟩
    cases r <;> trivial

/-- **Once the session is found**, the call stands before the gate. -/
theorem before_rotateFound {userId value : String} {userAgent ipAddress : Option String}
    {m : AuthService.Rotation} {s : Session} (huser : userPart refreshToken = some userId)
    (hvalue : valuePart refreshToken = some value) (huuid : host.uuid? userId = some s.userId)
    (hmatch : matchesHash host value s = true)
    (hopen : ∀ s₀, w₀.sessions.get? s.id = some s₀ → s₀.revokedAt = none)
    (hfound : ∃ s', w.sessions.get? s.id = some s' ∧ s.Later s') :
    (rotationGate host refreshToken w₀).Before (SessionOp.exec host) (fun _ => True)
      (ExceptT.run (rotateFound config userId userAgent ipAddress m s)) w := by
  rw [rotateFound, SessionTask.update]
  refine Gate.before_gate rfl (fun w' hkeeps => ⟨keeps_exec rfl, ?_⟩) fun _ => ?_
  · by_cases hdown : w'.down = true
    · rw [exec_of_down hdown]
      exact Or.inl ⟨_, rfl⟩
    · right
      obtain ⟨s', hs', hlater⟩ := hfound
      obtain ⟨t, ht, hlater'⟩ := hkeeps s.id s' hs'
      have hkey : t.id = s.id := Table.key_of_get? ht
      rw [exec_of_up (Bool.eq_false_iff.2 hdown), SessionOp.perform, ht]
      refine ⟨rfl, s.id, t.revoke m.revoked, ?_, ?_, Option.some_ne_none _, hopen⟩
      · exact hkey ▸ Table.get?_put_self w'.sessions (t.revoke m.revoked)
      · exact MatchesToken.later ⟨userId, value, huser, huuid, hvalue, hmatch⟩
          ((hlater.trans hlater').trans (t.later_revoke _))
  · refine ⟨rfl, fun w => keeps_exec rfl, by simp [rotationGate], fun r => ?_⟩
    rcases r with e | - | user
    · trivial
    · trivial
    · show (rotationGate host refreshToken w₀).Behind (SessionOp.exec host) true (ExceptT.run
        (if user.status = .active then generateTokenPair config userId user.email
          (user.roles.map Role.name) userAgent ipAddress m.draw else throw accountInactive))
      by_cases hactive : user.status = .active
      · rw [if_pos hactive]
        exact behind_generateTokenPair ..
      · rw [if_neg hactive]
        trivial

/-- **A call stands before the gate** when it begins. -/
theorem before_refreshTokens (userAgent ipAddress : Option String) (m : AuthService.Rotation) :
    (rotationGate host refreshToken w₀).Before (SessionOp.exec host) (fun _ => True)
      (ExceptT.run (refreshTokens config refreshToken userAgent ipAddress m)) w₀ := by
  have hthrow : ∀ (e : AuthError) w, (rotationGate host refreshToken w₀).Before
      (SessionOp.exec host) (fun _ => True)
        (ExceptT.run (throw e : SessionTask TokenPair)) w := by
    intro e w a ha
    cases ha
  cases huser : userPart refreshToken with
  | none =>
    rw [refreshTokens, huser]
    exact hthrow _ _
  | some userId =>
    cases hvalue : valuePart refreshToken with
    | none =>
      rw [refreshTokens, huser, hvalue]
      exact hthrow _ _
    | some value =>
      rw [refreshTokens_eq huser hvalue]
      refine Gate.before_bind fun w₁ hkeeps₁ => ⟨rfl, keeps_exec rfl, fun sessions hsessions => ?_⟩
      have hquery := run_findMany host (activeQuery userId m.queried) w₁
      rw [show (SessionOp.findMany (activeQuery userId m.queried)).exec host w₁ = _ from hquery]
        at hsessions ⊢
      refine Gate.before_bind (leads_firstMatch fun r w₂ hkeeps₂ hloop found hr => ?_)
      subst hr
      cases found with
      | none => exact Gate.before_bind fun w₃ _ => ⟨rfl, keeps_exec rfl, fun _ _ => hthrow _ _⟩
      | some s =>
        obtain ⟨hs, hmatch⟩ := hloop s rfl
        have hactive : s ∈ activeSessions host userId m.queried w₁ := by
          dsimp only at hsessions
          split_ifs at hsessions
          rw [← Except.ok.inj hsessions] at hs
          exact hs
        obtain ⟨hmem, huuid, hopen⟩ := (mem_activeSessions.1 hactive).1
        have hrow : w₁.sessions.get? s.id = some s := Table.get?_of_mem hmem
        refine before_rotateFound huser hvalue huuid hmatch (fun s₀ hs₀ => ?_) (hkeeps₂ s.id s hrow)
        -- a session that was revoked at the beginning would be revoked in the query
        by_contra hrevoked
        obtain ⟨s', hs', hlater⟩ := hkeeps₁ s.id s₀ hs₀
        obtain rfl : s = s' := Option.some.inj (hrow.symm.trans hs')
        exact hlater.revoked hrevoked hopen

end

/-! ## Once -/

section

variable {ι α : Type}

/-- Calls on the session store, interleaved. -/
abbrev AuthSystem (ι α : Type) : Type := System ι SessionWorld SessionOp SessionOp.Ans AuthError α

/-- A step of a run of them. -/
abbrev AuthStep (ι α : Type) : Type := AuthSystem ι α × System.Label ι × AuthSystem ι α

/-- In this step, a call makes this session. -/
def Makes (host : SessionHost) (p : AuthStep ι α) (row : Session) : Prop :=
  ∃ i data, p.2.1 = some i ∧ p.1.Performs i (.create data) ∧
    ((SessionOp.create data).exec host p.1.shared).1 = .ok row

/-- **One-time use**: one call at most has returned, and one session at most has been made. -/
structure OneTimeUse (host : SessionHost) (steps : List (AuthStep ι TokenPair))
    (σ : AuthSystem ι TokenPair) : Prop where
  pairs : ∀ i j pair pair', σ.result? i = some (.ok pair) → σ.result? j = some (.ok pair') → i = j
  sessions : steps.Pairwise fun p q => ∀ row row', ¬ (Makes host p row ∧ Makes host q row')

/-- A call revokes the session that it has found only where none that the token matches has been
revoked since. -/
def RevokesFirst (host : SessionHost) (refreshToken : String) (w₀ : SessionWorld)
    (σ : AuthSystem ι α) (l : System.Label ι) : Prop :=
  ∀ i id revokedAt, l = some i → σ.Performs i (.update id revokedAt) →
    ¬ Redeemed host refreshToken w₀ σ.shared

/-- What distinguishes the calls that present one token. -/
structure Caller where
  userAgent : Option String
  ipAddress : Option String
  rotation : AuthService.Rotation

/-- Calls of `refreshTokens` with one token, before their first operation. -/
def presentAll (config : AuthConfig) (refreshToken : String) (callers : ι → Caller)
    (w₀ : SessionWorld) : AuthSystem ι TokenPair :=
  System.start w₀ fun i => refreshTokens config refreshToken (callers i).userAgent
    (callers i).ipAddress (callers i).rotation

variable [DecidableEq ι] {host : SessionHost} {config : AuthConfig} {refreshToken : String}
  {callers : ι → Caller} {w₀ : SessionWorld} {steps : List (AuthStep ι TokenPair)}
  {σ : AuthSystem ι TokenPair}

/-- **A token is used once**, whatever the interleaving, where nobody revokes after another. -/
theorem oneTimeUse_refreshTokens
    (h : Run (System.Step (SessionOp.exec host) Keeps) (RevokesFirst host refreshToken w₀)
      (presentAll config refreshToken callers w₀) steps σ) : OneTimeUse host steps σ := by
  have hrespected : ∀ (σ : AuthSystem ι TokenPair) l, RevokesFirst host refreshToken w₀ σ l →
      (rotationGate host refreshToken w₀).Respected σ l := by
    intro σ l hfirst i o hl hperforms hpasses
    cases o with
    | update id revokedAt => exact hfirst i id revokedAt hl hperforms
    | _ => cases hpasses
  obtain ⟨hpairs, hsessions⟩ := Gate.once (fun i => before_refreshTokens ..) hrespected h
  refine ⟨fun i j pair pair' hi hj => hpairs i j pair pair' hi trivial hj trivial, ?_⟩
  refine hsessions.imp fun hboth row row' hmakes => hboth ?_
  obtain ⟨⟨i, data, hi, hperforms, -⟩, ⟨j, data', hj, hperforms', -⟩⟩ := hmakes
  exact ⟨⟨i, _, hi, hperforms, rfl⟩, ⟨j, _, hj, hperforms', rfl⟩⟩

/-- The step revokes no session, or none is revoked yet. -/
def revokesAlone (σ : AuthSystem ι TokenPair) : System.Label ι → Bool
  | none => true
  | some i =>
    match σ.tasks i with
    | .op (.update ..) _ => σ.shared.sessions.rows.all fun s => s.revokedAt.isNone
    | _ => true

omit [DecidableEq ι] in
theorem revokesFirst_of_revokesAlone {l : System.Label ι} (h : revokesAlone σ l = true) :
    RevokesFirst host refreshToken w₀ σ l := by
  rintro i id revokedAt rfl ⟨k, hop⟩ ⟨id', s, hs, -, hrevoked, -⟩
  simp only [revokesAlone, hop, List.all_eq_true] at h
  exact hrevoked (Option.isNone_iff_eq_none.1 (h s (Table.mem_of_get? hs)))

end

/-! ## One after the other -/

/-- Two calls that present the token of the one session. -/
def presentedTwice : AuthSystem Bool TokenPair :=
  presentAll weekly (hopper.text ++ ".issued")
    (fun first => ⟨none, none, 1, 1, "j", if first then "next" else "last", 1⟩)
    { hoppersWorld with ids := fun _ => tablet }

/-- The first call runs to its end, then the second. -/
def inTurn : List Bool := List.replicate 6 true ++ List.replicate 3 false

/-- The theorem at work: the second call is refused. -/
theorem oneTimeUse_presentedTwice :
    OneTimeUse plainSessionHost (presentedTwice.schedule (SessionOp.exec plainSessionHost) inTurn)
      (inTurn.foldl (System.next (SessionOp.exec plainSessionHost)) presentedTwice) ∧
    (inTurn.foldl (System.next (SessionOp.exec plainSessionHost)) presentedTwice).result? true =
      some (.ok ⟨⟨hopper.text, "hopper@example.com", [], "j"⟩, hopper.text ++ ".next", 900⟩) ∧
    (inTurn.foldl (System.next (SessionOp.exec plainSessionHost)) presentedTwice).result? false =
      some (.error AuthService.tokenRevoked) := by
  refine ⟨?_, by decide +kernel, by decide +kernel⟩
  refine oneTimeUse_refreshTokens (Run.restrict (System.run_schedule (by decide +kernel)) ?_)
  have halone : ((presentedTwice.schedule (SessionOp.exec plainSessionHost) inTurn).all
      fun p => revokesAlone p.1 p.2.1) = true := by decide +kernel
  exact fun p hp => revokesFirst_of_revokesAlone (List.all_eq_true.1 halone p hp)

end EnterpriseSystem.Authentication
