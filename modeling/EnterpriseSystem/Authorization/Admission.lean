import EnterpriseSystem.Authorization.Guards

/-!
# Who gets to a handler

Requests for the routes of `src/presentation/rest/controllers`, on their way through the guards in
any interleaving, while anything may happen to the database.

* `routes` — the routes, with what their decorators have set.
* `admitted_iff` — a request gets to its handler exactly when the states that it has seen clear it.
* `refused_unauthorized` — a refusal does not tell what is wrong with the account.
* `spent_by` — the counter of a user is moved by requests of that user only, and only after
  the guards in front of the throttlers have let them through.
-/

namespace EnterpriseSystem.Authorization

open Identity Relational Concurrency Authentication

/-! ## The routes -/

namespace AuthController

/-- A route of the controller, which is decorated with `@UseGuards(ThrottlerGuard)`. -/
def route (handler : Metadata) (rateLimit : Option RateLimiting.RateLimitOptions) : Route where
  handler := handler
  controller := {}
  rateLimit := rateLimit
  usesThrottler := true

def login : Route := route { isPublic := true } (some ⟨10, 60, "auth:login"⟩)

def register : Route := route { isPublic := true } (some ⟨5, 300, "auth:register"⟩)

def refresh : Route := route {} (some ⟨20, 60, "auth:refresh"⟩)

def logout : Route := route {} none

end AuthController

namespace UserController

def createUser : Route where
  handler := { roles := some ["admin"], permissions := some ["users:write"] }
  controller := {}

def listUsers : Route where
  handler := { permissions := some ["users:read"] }
  controller := {}

def getUser : Route where
  handler := { permissions := some ["users:read"] }
  controller := {}

def updateUser : Route where
  handler := { permissions := some ["users:write"] }
  controller := {}

def deleteUser : Route where
  handler := { roles := some ["admin"], permissions := some ["users:delete"] }
  controller := {}

end UserController

namespace HealthController

def liveness : Route where
  handler := {}
  controller := { isPublic := true }

def readiness : Route where
  handler := {}
  controller := { isPublic := true }

end HealthController

/-- The routes of the application. -/
def routes : List Route :=
  [AuthController.login, AuthController.register, AuthController.refresh, AuthController.logout,
    UserController.createUser, UserController.listUsers, UserController.getUser,
    UserController.updateUser, UserController.deleteUser, HealthController.liveness,
    HealthController.readiness]

/-- What the keys of a route begin with. -/
def Route.keyPrefix (route : Route) : String := (route.rateLimit.bind (·.keyPrefix)).getD "rl"

/-- The key of a user. -/
def userKey (keyPrefix : String) (id : DbUuid) : String := s!"{keyPrefix}:user:{id.text}"

/-- No prefix goes on like another one. -/
theorem keyPrefix_free : ∀ r ∈ routes, ∀ r' ∈ routes,
    (r.keyPrefix.toList ++ [':']) <+: (r'.keyPrefix.toList ++ [':']) → r.keyPrefix = r'.keyPrefix := by
  decide +kernel

/-! ## Keys -/

section

variable {route route' : Route}

/-- Two keys of routes that are equal have one prefix, and go on alike. -/
theorem keyPrefix_inj (hroute : route ∈ routes) (hroute' : route' ∈ routes) {xs ys : List Char}
    (h : route.keyPrefix.toList ++ ':' :: xs = route'.keyPrefix.toList ++ ':' :: ys) :
    route.keyPrefix = route'.keyPrefix ∧ xs = ys := by
  have hsame : route.keyPrefix = route'.keyPrefix := by
    have hpre : route.keyPrefix.toList ++ [':'] <+: route'.keyPrefix.toList ++ ':' :: ys :=
      ⟨xs, by rw [List.append_assoc, List.singleton_append, h]⟩
    have hpre' : route'.keyPrefix.toList ++ [':'] <+: route'.keyPrefix.toList ++ ':' :: ys :=
      ⟨ys, by rw [List.append_assoc, List.singleton_append]⟩
    rcases List.prefix_or_prefix_of_prefix hpre hpre' with hle | hle
    · exact keyPrefix_free route hroute route' hroute' hle
    · exact (keyPrefix_free route' hroute' route hroute hle).symm
  rw [hsame] at h
  exact ⟨hsame, (List.cons.inj (List.append_cancel_left h)).2⟩

theorem toList_userKey (keyPrefix : String) (id : DbUuid) :
    (userKey keyPrefix id).toList = keyPrefix.toList ++ ':' :: ("user:".toList ++ id.text.toList) := by
  show (keyPrefix ++ ":user:" ++ id.text).toList = _
  simp

theorem text_ne_empty (id : DbUuid) : id.text ≠ "" := by
  intro hempty
  have huuid := id.isUuid
  rw [hempty] at huuid
  exact absurd huuid (by decide +kernel)

/-- A request moves the counter of its key only. -/
theorem key_of_moved {g : RateLimiting.ThrottlerGuard} {c : RateLimiting.Context}
    {now : RateLimiting.Millis} {key : String}
    (h : (g.canActivate c now).2.store key ≠ g.store key) : g.key c = some key := by
  rw [RateLimiting.ThrottlerGuard.canActivate] at h
  cases hkey : g.key c with
  | none =>
    rw [hkey] at h
    exact absurd rfl h
  | some key' =>
    rw [hkey] at h
    by_contra hne
    exact h (RateLimiting.ThrottlerGuard.store_count_of_ne (fun hc => hne (congrArg some hc.symm)) _)

/-- **The key of a user** is counted under for requests of that user only. -/
theorem user_of_key {g : RateLimiting.ThrottlerGuard} {request : Request}
    {user : Option AuthenticatedUser} {id : DbUuid} (hroute : route ∈ routes)
    (hroute' : route' ∈ routes)
    (h : g.key (route'.context request user) = some (userKey route.keyPrefix id)) :
    route'.keyPrefix = route.keyPrefix ∧ ∃ u, user = some u ∧ u.id = id := by
  obtain ⟨address, -, hkey⟩ := Option.map_eq_some_iff.1 h
  cases user with
  | none =>
    replace hkey : route'.keyPrefix ++ ":ip:" ++ address = userKey route.keyPrefix id := hkey
    have hlist : route'.keyPrefix.toList ++ ':' :: ("ip:".toList ++ address.toList) =
        route.keyPrefix.toList ++ ':' :: ("user:".toList ++ id.text.toList) := by
      rw [← toList_userKey, ← hkey]
      simp
    have hrest := (keyPrefix_inj hroute' hroute hlist).2
    simp at hrest
  | some u =>
    have hkey' : (if u.id.text = "" then route'.keyPrefix ++ ":ip:" ++ address
        else userKey route'.keyPrefix u.id) = userKey route.keyPrefix id := hkey
    rw [if_neg (text_ne_empty u.id)] at hkey'
    have hchars := congrArg String.toList hkey'
    rw [toList_userKey, toList_userKey] at hchars
    obtain ⟨hsame, hrest⟩ := keyPrefix_inj hroute' hroute hchars
    have htext : u.id.text = id.text :=
      String.toList_injective (List.append_cancel_left hrest)
    refine ⟨hsame, u, rfl, ?_⟩
    obtain ⟨text, _, _⟩ := id
    obtain ⟨⟨text', _, _⟩, _⟩ := u
    cases htext
    rfl

end

/-! ## What the guards know -/

/-- What `request.user` is once the states have been seen. -/
def Identified (host : SessionHost) (route : Route) (request : Request) (seen : List ApiWorld) :
    Option AuthenticatedUser → Prop
  | none => route.getAllAndOverride Metadata.isPublic = some true
  | some user => route.getAllAndOverride Metadata.isPublic ≠ some true ∧
      ∃ payload w₁ w₂ rest, request.token = .ok payload ∧ seen = w₁ :: w₂ :: rest ∧
        Loads host payload w₁.store w₂.store user

section

variable {host : SessionHost} {messageOf : Problem → String} {route : Route} {request : Request}
  {payload : JwtPayload} {seen : List ApiWorld} {t : Throttler} {c : RateLimiting.Context}

/-- The strategy does not count anything. -/
theorem not_awaits_authenticate : ¬ (ExceptT.run (JwtAuthGuard.authenticate messageOf
    request)).Awaits (ApiOp.exec host) seen (.throttle t c) := by
  intro h
  cases htoken : request.token with
  | error info =>
    rw [JwtAuthGuard.authenticate, htoken] at h
    exact h.elim
  | ok payload =>
    rw [JwtAuthGuard.authenticate, htoken] at h
    rcases Prog.awaits_bind.1 h with hquery | ⟨_, _, r, -, -, hreturn⟩
    · obtain ⟨o, ho⟩ := Prog.exists_of_awaits_translate hquery
      cases ho
    · cases r <;> exact hreturn.elim

/-- The throttlers count, and they count a request under one context. -/
theorem throttle_of_awaits {ts : List Throttler} {o : ApiOp}
    (h : (ExceptT.run (ts.forM fun t => throttle t c)).Awaits (ApiOp.exec host) seen o) :
    ∃ t, o = .throttle t c := by
  induction ts generalizing seen with
  | nil => exact h.elim
  | cons t' ts ih =>
    replace h : (ExceptT.run (throttle t' c >>= fun _ => ts.forM fun t => throttle t c)).Awaits
      (ApiOp.exec host) seen o := h
    rcases Prog.awaits_exceptBind.1 h with hfirst | ⟨_, _, _, -, -, hrest⟩
    · cases seen with
      | nil => exact ⟨t', (Prog.awaits_op_nil.1 hfirst).symm⟩
      | cons w seen =>
        have hnone := Prog.awaits_op_cons.1 hfirst
        split at hnone <;> exact hnone.elim
    · exact ih hrest

/-- **What is counted**: a request that the guards in front of the throttlers have let through,
under the user that they know. -/
theorem counted_of_awaits (h : (ExceptT.run (activate messageOf route request)).Awaits
    (ApiOp.exec host) seen (.throttle t c)) :
    ∃ user, c = route.context request user ∧ Identified host route request seen user ∧
      route.Grants user := by
  rw [activate] at h
  rcases Prog.awaits_exceptBind.1 h with hfirst | ⟨pre, post, user, rfl, hpre, hrest⟩
  · exfalso
    rw [JwtAuthGuard.canActivate] at hfirst
    split_ifs at hfirst
    · exact hfirst.elim
    · rcases Prog.awaits_exceptBind.1 hfirst with hquery | ⟨_, _, _, -, -, hreturn⟩
      · exact not_awaits_authenticate hquery
      · exact hreturn.elim
  rcases Prog.awaits_exceptBind.1 hrest with hnone | ⟨_, _, _, rfl, hroles, hrest⟩
  · exact hnone.elim
  rcases Prog.awaits_exceptBind.1 hrest with hnone | ⟨_, _, _, rfl, hpermissions, hrest⟩
  · exact hnone.elim
  rcases Prog.awaits_exceptBind.1 hrest with hcounts | ⟨_, _, _, -, -, hreturn⟩
  swap
  · exact hreturn.elim
  obtain ⟨_, hcounted⟩ := throttle_of_awaits hcounts
  cases hcounted
  refine ⟨user, rfl, ?_,
    grants_iff.2 ⟨(saw_decide.1 hroles).2, (saw_decide.1 hpermissions).2⟩⟩
  rw [JwtAuthGuard.canActivate] at hpre
  split_ifs at hpre with hpublic
  · obtain ⟨-, huser⟩ := hpre
    cases huser
    exact hpublic
  · rcases Prog.saw_exceptBind.1 hpre with ⟨pre₁, pre₂, u, rfl, hauth, hreturn⟩ | ⟨_, _, he⟩
    swap
    · cases he
    obtain ⟨rfl, huser⟩ := hreturn
    cases huser
    obtain ⟨payload, w₁, w₂, htoken, rfl, hloads⟩ := saw_authenticate_iff.1 hauth
    exact ⟨hpublic, payload, w₁, w₂, _, htoken, by simp; rfl, hloads⟩

/-- The throttlers refuse a request for its number only. -/
theorem not_unauthorized_of_saw_throttlers {ts : List Throttler} {body : ProblemDetails} :
    ¬ (ExceptT.run (ts.forM fun t => throttle t c)).Saw (ApiOp.exec host) seen
      (.error (.unauthorized body)) := by
  induction ts generalizing seen with
  | nil => exact fun h => by cases h.2
  | cons t ts ih =>
    intro h
    replace h : (ExceptT.run (throttle t c >>= fun _ => ts.forM fun t => throttle t c)).Saw
      (ApiOp.exec host) seen (.error (.unauthorized body)) := h
    rcases Prog.saw_exceptBind.1 h with ⟨_, _, _, -, -, hrest⟩ | ⟨e, ⟨w, rest, rfl, hfirst⟩, he⟩
    · exact ih hrest
    · cases he
      simp only [ApiOp.exec, certain] at hfirst
      split at hfirst <;> cases hfirst.2

theorem not_unauthorized_of_rolesGuard {user : Option AuthenticatedUser} {body : ProblemDetails} :
    RolesGuard.canActivate route user ≠ .error (.unauthorized body) := by
  rw [RolesGuard.canActivate]
  split
  · simp
  · simp
  · cases user with
    | none => simp
    | some user => simp only; split_ifs <;> simp

theorem not_unauthorized_of_permissionsGuard {user : Option AuthenticatedUser}
    {body : ProblemDetails} :
    PermissionsGuard.canActivate route user ≠ .error (.unauthorized body) := by
  rw [PermissionsGuard.canActivate]
  split
  · simp
  · simp
  · cases user with
    | none => simp
    | some user => simp only; split_ifs <;> simp

/-- **One answer** for everything that the strategy has against a token, where no query fails on
its own account. -/
theorem unauthorized_of_saw_activate {name : String} {id : DbUuid} {body : ProblemDetails}
    (htoken : request.token = .ok payload) (hid : host.uuid? payload.sub = some id)
    (hup : ∀ w ∈ seen, w.store.down = false)
    (h : (ExceptT.run (activate (fun _ => name) route request)).Saw (ApiOp.exec host) seen
      (.error (.unauthorized body))) : body = JwtAuthGuard.unauthorized name := by
  rw [activate] at h
  rcases Prog.saw_exceptBind.1 h with ⟨_, _, _, -, -, h⟩ | ⟨e, h, he⟩
  · -- the other guards answer otherwise
    exfalso
    rcases Prog.saw_exceptBind.1 h with ⟨_, _, _, -, -, h⟩ | ⟨_, h, he⟩
    swap
    · cases he
      exact not_unauthorized_of_rolesGuard (saw_decide.1 h).2
    rcases Prog.saw_exceptBind.1 h with ⟨_, _, _, -, -, h⟩ | ⟨_, h, he⟩
    swap
    · cases he
      exact not_unauthorized_of_permissionsGuard (saw_decide.1 h).2
    rcases Prog.saw_exceptBind.1 h with ⟨_, _, _, -, -, h⟩ | ⟨_, h, he⟩
    · cases h.2
    · cases he
      exact not_unauthorized_of_saw_throttlers h
  · cases he
    rw [JwtAuthGuard.canActivate] at h
    split_ifs at h
    · cases h.2
    rcases Prog.saw_exceptBind.1 h with ⟨_, _, _, -, -, h⟩ | ⟨_, h, he⟩
    · cases h.2
    cases he
    rw [JwtAuthGuard.authenticate, htoken] at h
    obtain ⟨pre, _, r, rfl, hquery, hreturn⟩ := Prog.saw_bind.1 h
    rw [saw_ofSession] at hquery
    cases r with
    | ok user => cases hreturn.2
    | error e =>
      have hup' : ∀ v ∈ pre.map ApiWorld.store, v.down = false := by
        intro v hv
        obtain ⟨w, hw, rfl⟩ := List.mem_map.1 hv
        exact hup w (List.mem_append_left _ hw)
      obtain ⟨problem, rfl⟩ := unauthorized_of_saw hid hup' hquery
      cases hreturn.2
      rfl

end

/-! ## Together -/

section

variable {ι : Type}

/-- Requests on their way through the guards. -/
abbrev ApiSystem (ι : Type) : Type :=
  System ι ApiWorld ApiOp ApiOp.Ans Empty (Except HttpError (Option AuthenticatedUser))

/-- A step of a run of them. -/
abbrev ApiStep (ι : Type) : Type := ApiSystem ι × System.Label ι × ApiSystem ι

/-- Requests that have just come in, each for its route. -/
def receiveAll (messageOf : Problem → String) (requests : ι → Route × Request) (w : ApiWorld) :
    ApiSystem ι :=
  System.start w fun i => ExceptT.lift (ExceptT.run (activate messageOf (requests i).1 (requests i).2))

variable [DecidableEq ι] {host : SessionHost} {messageOf : Problem → String}
  {requests : ι → Route × Request} {w : ApiWorld} {around : ApiWorld → ApiWorld → Prop}
  {steps : List (ApiStep ι)} {σ : ApiSystem ι} {i : ι}

/-- A request has been answered as the guards answer it in the states that it has seen. -/
theorem answered_iff_saw
    (h : Run (System.Step (ApiOp.exec host) around) Always (receiveAll messageOf requests w) steps σ)
    {r : Except HttpError (Option AuthenticatedUser)} : σ.result? i = some (.ok r) ↔
      (ExceptT.run (activate messageOf (requests i).1 (requests i).2)).Saw (ApiOp.exec host)
        (System.seen i steps) r := by
  rw [System.result?_iff_saw h]
  constructor
  · intro hsaw
    obtain ⟨pre, _, _, hseen, hpre, rfl, hr⟩ := Prog.saw_bind.1 hsaw
    cases hr
    rw [hseen, List.append_nil]
    exact hpre
  · exact fun hsaw => Prog.saw_bind.2 ⟨_, [], r, (List.append_nil _).symm, hsaw, rfl, rfl⟩

/-- **Who gets to a handler**, in any interleaving with other requests and with whatever else
happens to the database: exactly the requests that are cleared by the states they have seen. -/
theorem admitted_iff
    (h : Run (System.Step (ApiOp.exec host) around) Always (receiveAll messageOf requests w) steps σ)
    {user : Option AuthenticatedUser} : σ.result? i = some (.ok (.ok user)) ↔
      Cleared host (requests i).1 (requests i).2 (System.seen i steps) user :=
  (answered_iff_saw h).trans saw_activate_iff


/-- **A refusal does not tell** what is wrong with the account: where no query fails on its own
account, a request with a token that has been verified gets one and the same answer, whether the
sessions have been revoked, the user does not exist or the account is not active.  `name` is the
message of an exception whose body has none. -/
theorem refused_unauthorized {name : String} {payload : JwtPayload} {id : DbUuid}
    {body : ProblemDetails}
    (h : Run (System.Step (ApiOp.exec host) around) Always (receiveAll (fun _ => name) requests w)
      steps σ) (htoken : (requests i).2.token = .ok payload)
    (hid : host.uuid? payload.sub = some id) (hup : ∀ v ∈ System.seen i steps, v.store.down = false)
    (hi : σ.result? i = some (.ok (.error (.unauthorized body)))) :
    body = JwtAuthGuard.unauthorized name :=
  unauthorized_of_saw_activate htoken hid hup ((answered_iff_saw h).1 hi)

/-- **The counter of a user** is moved by requests of that user only, for a route with that prefix,
and only after the guards in front of the throttlers have let them through. -/
theorem spent_by {pre post : List (ApiStep ι)} {p : ApiStep ι} {route : Route} {id : DbUuid}
    {t : Throttler} (hroutes : ∀ i, (requests i).1 ∈ routes) (hroute : route ∈ routes)
    (h : Run (System.Step (ApiOp.exec host) around) Always (receiveAll messageOf requests w)
      (pre ++ p :: post) σ) (hi : p.2.1 = some i)
    (hspent : (p.2.2.shared.throttlers t).store (userKey route.keyPrefix id) ≠
      (p.1.shared.throttlers t).store (userKey route.keyPrefix id)) :
    (requests i).1.keyPrefix = route.keyPrefix ∧ ∃ user, user.id = id ∧
      Identified host (requests i).1 (requests i).2 (System.seen i pre) (some user) ∧
      (requests i).1.Grants (some user) := by
  obtain ⟨σ₁, hbefore, hrest⟩ := h.of_append
  obtain ⟨rfl, -, hstep, -⟩ := hrest.of_cons
  rw [hi] at hstep
  obtain ⟨o, k, hop, hshared, -, -⟩ := hstep.of_some
  rw [hshared] at hspent
  cases o with
  | session o => exact absurd rfl hspent
  | throttle t' c =>
    have hawaits := (System.performs_iff_awaits hbefore).1 ⟨k, hop⟩
    have hactivate : (ExceptT.run (activate messageOf (requests i).1 (requests i).2)).Awaits
        (ApiOp.exec host) (System.seen i pre) (.throttle t' c) := by
      rcases Prog.awaits_bind.1 hawaits with hactivate | ⟨_, _, _, -, -, hreturn⟩
      · exact hactivate
      · exact hreturn.elim
    obtain ⟨user, rfl, hidentified, hgrants⟩ := counted_of_awaits hactivate
    have hkey : (p.1.shared.throttlers t).key ((requests i).1.context (requests i).2 user) =
        some (userKey route.keyPrefix id) := by
      by_cases htt : t = t'
      · subst htt
        simp only [ApiOp.exec, Function.update_self] at hspent
        exact key_of_moved hspent
      · simp only [ApiOp.exec, Function.update_of_ne htt, ne_eq, not_true_eq_false] at hspent
    obtain ⟨hsame, u, rfl, hu⟩ := user_of_key hroute (hroutes i) hkey
    exact ⟨hsame, u, hu, hidentified, hgrants⟩

end

/-! ## An administrator deletes a user -/

/-- A store in which the user is an administrator. -/
def adminsWorld : SessionWorld :=
  { hoppersWorld with
    users := fun id => if id = hopper then
      some ⟨hopper, "hopper@example.com", .active, [⟨"admin", ["users:read", "users:delete"]⟩]⟩
      else none }

/-- The same after the sessions of the user have been revoked. -/
def revokedWorld : SessionWorld :=
  { adminsWorld with
    sessions := (Table.empty Authentication.Session.id).put (hoppersSession.revoke 1) }

/-- Counters at zero. -/
def quiet (store : SessionWorld) : ApiWorld where
  store := store
  throttlers := fun _ => .new 100 60
  now := 0

/-- A request with a token of the user. -/
def hoppersRequest : Request where
  token := .ok ⟨hopper.text, "hopper@example.com", [], "issued"⟩
  forwarded := .absent
  ip := some "10.0.0.1"

/-- The name of an exception. -/
def exceptionName : String := "Unauthorized Exception"

/-- One request, to delete a user. -/
def deletes (store : SessionWorld) : ApiSystem Unit :=
  receiveAll (fun _ => exceptionName) (fun _ => (UserController.deleteUser, hoppersRequest))
    (quiet store)

/-- What the handler gets. -/
def admin : AuthenticatedUser :=
  ⟨hopper, "hopper@example.com", ["admin"], ["users:read", "users:delete"]⟩

/-- The theorem at work: the administrator gets to the handler. -/
theorem admitted_iff_administrator :
    let exec := ApiOp.exec plainSessionHost
    let σ := [(), (), ()].foldl (System.next exec) (deletes adminsWorld)
    Run (System.Step exec fun _ _ => True) Always (deletes adminsWorld)
      ((deletes adminsWorld).schedule exec [(), (), ()]) σ ∧
      σ.result? () = some (.ok (.ok (some admin))) ∧
      Cleared plainSessionHost UserController.deleteUser hoppersRequest
        (System.seen () ((deletes adminsWorld).schedule exec [(), (), ()])) (some admin) := by
  intro exec σ
  have hrun : Run (System.Step exec fun _ _ => True) Always (deletes adminsWorld)
      ((deletes adminsWorld).schedule exec [(), (), ()]) σ :=
    System.run_schedule (by decide +kernel)
  have hresult : σ.result? () = some (.ok (.ok (some admin))) := by
    rfl
  exact ⟨hrun, hresult, (admitted_iff hrun).1 hresult⟩

/-- The theorem at work: a revoked administrator is told nothing but that. -/
theorem refused_unauthorized_revoked :
    let exec := ApiOp.exec plainSessionHost
    let σ := [()].foldl (System.next exec) (deletes revokedWorld)
    ∃ body, σ.result? () = some (.ok (.error (.unauthorized body))) ∧
      body = JwtAuthGuard.unauthorized exceptionName := by
  intro exec σ
  have hrun : Run (System.Step exec fun _ _ => True) Always (deletes revokedWorld)
      ((deletes revokedWorld).schedule exec [()]) σ := System.run_schedule (by decide +kernel)
  have hid : plainSessionHost.uuid? hopper.text = some hopper := by simp [plainSessionHost]
  have hup : ∀ v ∈ System.seen () ((deletes revokedWorld).schedule exec [()]),
      v.store.down = false := by
    intro v hv
    obtain rfl := List.mem_singleton.1 hv
    rfl
  exact ⟨_, rfl, refused_unauthorized hrun rfl hid hup rfl⟩

/-- The theorem at work: the third step counts the request of the administrator. -/
theorem spent_by_administrator :
    let exec := ApiOp.exec plainSessionHost
    let steps := (deletes adminsWorld).schedule exec [(), ()]
    ∃ user, user.id = hopper ∧ Identified plainSessionHost UserController.deleteUser hoppersRequest
      (System.seen () steps) (some user) ∧ UserController.deleteUser.Grants (some user) := by
  intro exec steps
  let σ := [(), ()].foldl (System.next exec) (deletes adminsWorld)
  have hawaits : (deletes adminsWorld).awaits exec [(), (), ()] = true := by decide +kernel
  have hrun : Run (System.Step exec fun _ _ => True) Always (deletes adminsWorld)
      (steps ++ (σ, some (), σ.next exec ()) :: []) (σ.next exec ()) := System.run_schedule hawaits
  have hspent : ((σ.next exec ()).shared.throttlers .global).store (userKey "rl" hopper) ≠
      (σ.shared.throttlers .global).store (userKey "rl" hopper) := by decide +kernel
  have hroutes : ∀ _ : Unit, UserController.deleteUser ∈ routes := fun _ => by decide
  exact (spent_by hroutes (hroutes ()) hrun rfl hspent).2

end EnterpriseSystem.Authorization
