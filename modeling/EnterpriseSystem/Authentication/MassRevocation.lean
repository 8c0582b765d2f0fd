import EnterpriseSystem.Authentication.ConcurrentRefresh

/-!
# Signing a user out everywhere

`revokeAllTokens`, and the mass revocations inside `refreshTokens` and `revokeToken`, while any
number of other calls are in progress.

* `Open` — a user has an unrevoked session.
* `mem_exec` — after an operation a session is a later version of one that was there, or it is the
  one that the operation has made.
* `doomed_validate`, `doomed_refreshTokens` — what is refused to a user without an open session.
* `cutOff` — after a mass revocation only what has been made since is open, and until then the
  user is refused.
-/

namespace EnterpriseSystem.Authentication

open Identity Relational Concurrency AuthService

variable {host : SessionHost} {config : AuthConfig} {user : DbUuid}

/-! ## Open sessions -/

/-- The user has an unrevoked session. -/
def Open (user : DbUuid) (w : SessionWorld) : Prop :=
  ∃ s ∈ w.sessions, s.userId = user ∧ s.revokedAt = none

/-- Every session is a later version of one that was there before. -/
def Continues (w w' : SessionWorld) : Prop :=
  ∀ s' ∈ w'.sessions, ∃ s ∈ w.sessions, s.id = s'.id ∧ s.Later s'

theorem continues_of_eq {w w' : SessionWorld} (h : w'.sessions = w.sessions) : Continues w w' :=
  fun s' hs' => ⟨s', h ▸ hs', rfl, .refl s'⟩

/-- **After an operation** a session is a later version of one that was there, or it has just been
made. -/
theorem mem_exec (o : SessionOp) {w : SessionWorld} {s' : Session}
    (hs' : s' ∈ (o.exec host w).2.sessions) :
    (∃ s ∈ w.sessions, s.id = s'.id ∧ s.Later s') ∨
      ∃ data, o = .create data ∧ ((SessionOp.create data).exec host w).1 = .ok s' := by
  by_cases hdown : w.down = true
  · rw [exec_of_down hdown] at hs'
    exact Or.inl (continues_of_eq rfl s' hs')
  rw [exec_of_up (Bool.eq_false_iff.2 hdown)] at hs'
  cases o with
  | bcryptHash value => exact Or.inl (continues_of_eq rfl s' hs')
  | bcryptCompare value hash => exact Or.inl (continues_of_eq rfl s' hs')
  | findMany query =>
    rw [SessionOp.perform] at hs'
    split_ifs at hs' <;> exact Or.inl (continues_of_eq rfl s' hs')
  | findFirst query =>
    rw [SessionOp.perform] at hs'
    split_ifs at hs' <;> exact Or.inl (continues_of_eq rfl s' hs')
  | findUser id =>
    rw [SessionOp.perform] at hs'
    split at hs' <;> exact Or.inl (continues_of_eq rfl s' hs')
  | update id revokedAt =>
    left
    rw [SessionOp.perform] at hs'
    split at hs'
    · rename_i s hrow
      rcases Table.mem_put_iff.1 hs' with rfl | ⟨hs', -⟩
      · exact ⟨s, Table.mem_of_get? hrow, rfl, s.later_revoke revokedAt⟩
      · exact continues_of_eq rfl s' hs'
    · exact continues_of_eq rfl s' hs'
  | updateMany query revokedAt =>
    left
    rw [SessionOp.perform] at hs'
    split_ifs at hs'
    · obtain ⟨s, hs, rfl⟩ := List.mem_map.1 hs'
      refine ⟨s, hs, ?_, ?_⟩
      · split_ifs <;> rfl
      · split_ifs
        · exact s.later_revoke revokedAt
        · exact .refl s
    · exact continues_of_eq rfl s' hs'
  | deleteMany query =>
    left
    rw [SessionOp.perform] at hs'
    split_ifs at hs'
    · exact ⟨s', (Table.mem_remove_iff.1 hs').1, rfl, .refl s'⟩
    · exact continues_of_eq rfl s' hs'
  | create data =>
    rw [SessionOp.perform] at hs'
    split at hs'
    · exact Or.inl (continues_of_eq rfl s' hs')
    · rename_i userId huser
      split_ifs at hs' with hunique hforeign
      · exact Or.inl (continues_of_eq rfl s' hs')
      · exact Or.inl (continues_of_eq rfl s' hs')
      · rcases Table.mem_put_iff.1 hs' with rfl | ⟨hs', -⟩
        · refine Or.inr ⟨data, rfl, ?_⟩
          rw [exec_of_up (Bool.eq_false_iff.2 hdown), SessionOp.perform, huser]
          simp only [hunique, hforeign, Bool.false_eq_true, if_false]
        · exact Or.inl (continues_of_eq rfl s' hs')

/-- **The mass revocation** leaves the user no open session. -/
theorem not_open_of_updateMany {userId : String} {now : Date} {n : ℕ} {w : SessionWorld}
    (huser : host.uuid? userId = some user)
    (h : ((SessionOp.updateMany { userId := userId, revoked := false } now).exec host w).1 = .ok n) :
    ¬ Open user ((SessionOp.updateMany { userId := userId, revoked := false } now).exec host w).2 := by
  by_cases hdown : w.down = true
  · rw [exec_of_down hdown] at h
    cases h
  rw [exec_of_up (Bool.eq_false_iff.2 hdown), SessionOp.perform] at h ⊢
  rw [if_pos (wellTyped_iff.2 ⟨user, huser⟩)] at h ⊢
  rintro ⟨s', hs', hid, hopen⟩
  obtain ⟨s, hs, rfl⟩ := List.mem_map.1 hs'
  by_cases hselects : SessionWhere.selects host { userId := userId, revoked := false } s = true
  · rw [if_pos hselects] at hopen
    exact Option.some_ne_none _ hopen
  · rw [if_neg hselects] at hid hopen
    exact hselects (selects_unrevoked.2 ⟨huser.trans (congrArg some hid.symm), hopen⟩)

/-! ## What is refused -/

/-- **An access token** of a user without an open session is refused. -/
theorem doomed_validate {payload : JwtPayload} (huser : host.uuid? payload.sub = some user) :
    Task.Doomed (SessionOp.exec host) (fun w => ¬ Open user w) (JwtStrategy.validate payload) := by
  refine Task.doomed_await_bind fun w hclosed found hfound => ?_
  have hquery := run_findFirst host { userId := payload.sub, revoked := false } w
  rw [show (SessionOp.findFirst _).exec host w = _ from hquery,
    if_pos (wellTyped_iff.2 ⟨user, huser⟩)] at hfound
  cases found with
  | none => exact .throw _
  | some s =>
    dsimp only at hfound
    split_ifs at hfound
    have hsome := Except.ok.inj hfound
    obtain ⟨hsub, hopen⟩ := selects_unrevoked.1 (List.find?_some hsome)
    refine absurd ⟨s, List.mem_of_find?_eq_some hsome, ?_, hopen⟩ hclosed
    exact Option.some.inj (hsub.symm.trans huser)

/-- **A refresh token** of a user without an open session is refused. -/
theorem doomed_refreshTokens {refreshToken userId : String} (userAgent ipAddress : Option String)
    (m : AuthService.Rotation) (hpart : userPart refreshToken = some userId)
    (huser : host.uuid? userId = some user) :
    Task.Doomed (SessionOp.exec host) (fun w => ¬ Open user w)
      (refreshTokens config refreshToken userAgent ipAddress m) := by
  cases hvalue : valuePart refreshToken with
  | none =>
    rw [refreshTokens, hpart, hvalue]
    exact .throw _
  | some value =>
    rw [refreshTokens_eq hpart hvalue]
    refine Task.doomed_await_bind fun w hclosed sessions hsessions => ?_
    have hquery := run_findMany host (activeQuery userId m.queried) w
    rw [show (SessionOp.findMany (activeQuery userId m.queried)).exec host w = _ from hquery]
      at hsessions
    have hnone : w.sessions.rows.filter ((activeQuery userId m.queried).selects host) = [] := by
      refine List.filter_eq_nil_iff.2 fun s hs hselects => ?_
      obtain ⟨⟨-, hid, hopen⟩, -⟩ := mem_activeSessions.1 (List.mem_filter.2 ⟨hs, hselects⟩)
      exact hclosed ⟨s, hs, Option.some.inj (hid.symm.trans huser), hopen⟩
    obtain rfl : sessions = [] := by
      dsimp only at hsessions
      split_ifs at hsessions
      exact (Except.ok.inj hsessions).symm.trans hnone
    exact Task.doomed_await_bind fun _ _ _ _ => .throw _

/-! ## In a run -/

section

variable {ι : Type}

/-- Calls of `AuthService` and of `JwtStrategy.validate`, before their first operation. -/
def callAll (config : AuthConfig) (calls : ι → AuthCall) (w : SessionWorld) :
    AuthSystem ι AuthAnswer :=
  System.start w fun i => (calls i).task config

/-- In this step, a call revokes all sessions of the user. -/
def RevokesAll (host : SessionHost) (user : DbUuid) (p : AuthStep ι AuthAnswer) : Prop :=
  ∃ i userId now n, p.2.1 = some i ∧ host.uuid? userId = some user ∧
    p.1.Performs i (.updateMany { userId := userId, revoked := false } now) ∧
      ((SessionOp.updateMany { userId := userId, revoked := false } now).exec host p.1.shared).1 =
        .ok n

/-- The call presents an access token or a refresh token of the user. -/
def AuthCall.Presents (host : SessionHost) (user : DbUuid) : AuthCall → Prop
  | .validate payload => host.uuid? payload.sub = some user
  | .refreshTokens refreshToken .. =>
    ∃ userId, userPart refreshToken = some userId ∧ host.uuid? userId = some user
  | _ => False

/-- The call has not begun. -/
def NotBegun (config : AuthConfig) (calls : ι → AuthCall) (σ : AuthSystem ι AuthAnswer) (i : ι) :
    Prop :=
  σ.tasks i = ExceptT.run ((calls i).task config)

/-- **A user is cut off** from the step `p` on: what is open has been made since, and while nothing
has been made for the user, no token of the user is accepted by a call that begins. -/
structure CutOff (host : SessionHost) (config : AuthConfig) (calls : ι → AuthCall) (user : DbUuid)
    (p : AuthStep ι AuthAnswer) (post : List (AuthStep ι AuthAnswer)) (σ : AuthSystem ι AuthAnswer) :
    Prop where
  sessions : ∀ s ∈ σ.shared.sessions, s.userId = user → s.revokedAt = none →
    ∃ q ∈ post, ∃ row, Makes host q row ∧ row.userId = user ∧ row.id = s.id
  tokens : (∀ q ∈ post, ∀ row, Makes host q row → row.userId ≠ user) →
    ∀ i, (calls i).Presents host user → NotBegun config calls p.2.2 i →
      ∀ answer, σ.result? i ≠ some (.ok answer)

variable [DecidableEq ι] {calls : ι → AuthCall} {w : SessionWorld}
  {pre post : List (AuthStep ι AuthAnswer)} {p : AuthStep ι AuthAnswer} {σ : AuthSystem ι AuthAnswer}

/-- A call that presents a token of the user is doomed while the user has no open session. -/
theorem AuthCall.Presents.doomed {call : AuthCall} (h : call.Presents host user) :
    Task.Doomed (SessionOp.exec host) (fun w => ¬ Open user w) (call.task config) := by
  cases call with
  | validate payload => exact (doomed_validate h).bind _
  | refreshTokens refreshToken userAgent ipAddress m =>
    obtain ⟨userId, hpart, huser⟩ := h
    exact (doomed_refreshTokens userAgent ipAddress m hpart huser).bind _
  | _ => exact h.elim

/-- **One step**: what is open was open, or has just been made. -/
theorem open_step {σ σ' : AuthSystem ι AuthAnswer} {l : System.Label ι}
    (h : System.Step (SessionOp.exec host) Continues σ l σ') {s' : Session}
    (hs' : s' ∈ σ'.shared.sessions) (hopen : s'.revokedAt = none) :
    (∃ s ∈ σ.shared.sessions, s.id = s'.id ∧ s.userId = s'.userId ∧ s.revokedAt = none) ∨
      Makes host (σ, l, σ') s' := by
  have hback : (∃ s ∈ σ.shared.sessions, s.id = s'.id ∧ s.Later s') →
      ∃ s ∈ σ.shared.sessions, s.id = s'.id ∧ s.userId = s'.userId ∧ s.revokedAt = none := by
    rintro ⟨s, hs, hid, hlater⟩
    exact ⟨s, hs, hid, hlater.userId.symm, by_contra fun hrevoked => hlater.revoked hrevoked hopen⟩
  cases l with
  | none => exact Or.inl (hback (h.of_none.1 s' hs'))
  | some i =>
    obtain ⟨o, k, hop, hshared, -, -⟩ := h.of_some
    rw [hshared] at hs'
    rcases mem_exec o hs' with hold | ⟨data, rfl, hmade⟩
    · exact Or.inl (hback hold)
    · exact Or.inr ⟨i, data, rfl, ⟨k, hop⟩, hmade⟩

/-- **A run** in which nobody begins with an open session of the user: what is open has been made
in it. -/
theorem open_of_run {σ₀ : AuthSystem ι AuthAnswer} (hclosed : ¬ Open user σ₀.shared)
    (h : Run (System.Step (SessionOp.exec host) Continues) Always σ₀ post σ) {s : Session}
    (hs : s ∈ σ.shared.sessions) (huser : s.userId = user) (hopen : s.revokedAt = none) :
    ∃ q ∈ post, ∃ row, Makes host q row ∧ row.userId = user ∧ row.id = s.id := by
  induction h generalizing s with
  | start => exact absurd ⟨s, hs, huser, hopen⟩ hclosed
  | next _ _ hstep ih =>
    rcases open_step hstep hs hopen with ⟨t, ht, hid, hsame, hbefore⟩ | hmade
    · obtain ⟨q, hq, row, hrow, hrowUser, hrowId⟩ := ih ht (hsame.trans huser) hbefore
      exact ⟨q, List.mem_append_left _ hq, row, hrow, hrowUser, hrowId.trans hid⟩
    · exact ⟨_, List.mem_append_right _ (List.mem_singleton_self _), s, hmade, huser, rfl⟩

/-- **Mass revocation** holds against whatever else is in progress. -/
theorem cutOff (hrevokes : RevokesAll host user p)
    (h : Run (System.Step (SessionOp.exec host) Continues) Always (callAll config calls w)
      (pre ++ p :: post) σ) : CutOff host config calls user p post σ := by
  obtain ⟨σ₁, -, hrest⟩ := h.of_append
  obtain ⟨rfl, -, hstep, hafter⟩ := hrest.of_cons
  have hclosed : ¬ Open user p.2.2.shared := by
    obtain ⟨i, userId, now, n, hi, huser, ⟨k, hop⟩, hdone⟩ := hrevokes
    rw [hi] at hstep
    obtain ⟨o, k', hop', hshared, -, -⟩ := hstep.of_some
    rw [hop] at hop'
    cases hop'
    rw [hshared]
    exact not_open_of_updateMany huser hdone
  refine ⟨fun s hs huser hopen => open_of_run hclosed hafter hs huser hopen, ?_⟩
  intro hnone i hpresents hbegins answer hanswer
  have hsteps : ∀ q ∈ post, ¬ Open user q.1.shared := by
    rintro q hq ⟨s, hs, huser, hopen⟩
    obtain ⟨before, later, rfl⟩ := List.append_of_mem hq
    obtain ⟨σ₂, hbefore, hlater⟩ := hafter.of_append
    obtain ⟨rfl, -⟩ := hlater.of_cons
    obtain ⟨q', hq', row, hrow, hrowUser, -⟩ := open_of_run hclosed hbefore hs huser hopen
    exact hnone q' (List.mem_append_left _ hq') row hrow hrowUser
  have hdoomed : (p.2.2.tasks i).Doomed (SessionOp.exec host) fun w => ¬ Open user w :=
    hbegins ▸ hpresents.doomed
  have hend := System.doomed_of_run hdoomed hafter hsteps
  rw [System.result?] at hanswer
  cases htask : σ.tasks i with
  | op o k => simp [Prog.result?, htask] at hanswer
  | ret r =>
    rw [htask] at hend
    obtain ⟨e, rfl⟩ := hend
    simp [Prog.result?, htask] at hanswer

end

/-! ## One device signs out, another comes back -/

/-- One call revokes, and one presents an access token. -/
def signsOut : Bool → AuthCall
  | true => .revokeAllTokens hopper.text 1
  | false => .validate ⟨hopper.text, "hopper@example.com", [], "issued"⟩

/-- The two calls on a store with an open session. -/
def everyDevice : AuthSystem Bool AuthAnswer := callAll weekly signsOut hoppersWorld

/-- The store when everything is revoked. -/
def signedOut : AuthSystem Bool AuthAnswer :=
  everyDevice.next (SessionOp.exec plainSessionHost) true

/-- The theorem at work: the other device is refused. -/
theorem cutOff_everyDevice :
    CutOff plainSessionHost weekly signsOut hopper (everyDevice, some true, signedOut)
      (signedOut.schedule (SessionOp.exec plainSessionHost) [false])
      (signedOut.next (SessionOp.exec plainSessionHost) false) ∧
    (signedOut.next (SessionOp.exec plainSessionHost) false).result? false =
      some (.error JwtStrategy.tokenRevoked) := by
  have hrun : Run (System.Step (SessionOp.exec plainSessionHost) Continues) Always everyDevice
      ([] ++ (everyDevice, some true, signedOut) ::
        signedOut.schedule (SessionOp.exec plainSessionHost) [false])
      (signedOut.next (SessionOp.exec plainSessionHost) false) :=
    System.run_schedule (by decide +kernel : everyDevice.awaits _ [true, false] = true)
  refine ⟨cutOff ⟨true, hopper.text, 1, (1 : ℕ), rfl, ?_, ⟨_, rfl⟩, ?_⟩ hrun, ?_⟩
  · simp [plainSessionHost]
  · exact (by decide +kernel : ((revokeAllTokens hopper.text 1).run
      (SessionOp.exec plainSessionHost) hoppersWorld).1 = .ok 1)
  · decide +kernel

end EnterpriseSystem.Authentication
