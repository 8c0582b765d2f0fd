import EnterpriseSystem.Authentication.MassRevocation
import EnterpriseSystem.Base.Observed
import EnterpriseSystem.RateLimiting.ThrottlerGuard

/-!
# The guards in front of a handler

`JwtAuthGuard`, `RolesGuard` and `PermissionsGuard` of `src/security`, and `ThrottlerGuard` behind
them, in the order in which `SecurityModule` registers them.  Requests are interleaved at the
queries of `JwtStrategy.validate` and between the guards.

* `Route`, `Request` — what the decorators have set, and what a request brings along.
* `ApiOp`, `ApiWorld` — what the guards await: the session store and the counters.
* `activate` — the guards, one after the other.
* `Cleared` — the states that let a request through; `saw_activate_iff` says so of the guards.
-/

namespace EnterpriseSystem.Authorization

open Identity Relational Concurrency Authentication

/-! ## Routes and requests -/

/-- What `@Public`, `@Roles` and `@Permissions` have set on a handler or on a controller. -/
structure Metadata where
  isPublic : Option Bool := none
  roles : Option (List String) := none
  permissions : Option (List String) := none
  deriving DecidableEq

/-- A handler and its controller. -/
structure Route where
  handler : Metadata
  controller : Metadata
  /-- `@RateLimit` on the handler. -/
  rateLimit : Option RateLimiting.RateLimitOptions := none
  /-- `@UseGuards(ThrottlerGuard)` on the controller, which gets a guard of its own. -/
  usesThrottler : Bool := false
  deriving DecidableEq

/-- `reflector.getAllAndOverride(key, [context.getHandler(), context.getClass()])`. -/
def Route.getAllAndOverride {α : Type} (route : Route) (key : Metadata → Option α) : Option α :=
  (key route.handler).or (key route.controller)

/-- A request, with what `passport-jwt` makes of its `Authorization` header: the payload of a token
that it has verified, or the message it fails with. -/
structure Request where
  token : Except String JwtPayload
  forwarded : RateLimiting.Forwarded
  ip : Option String

/-- What `ThrottlerGuard` reads of a request whose user is known. -/
def Route.context (route : Route) (request : Request) (user : Option AuthenticatedUser) :
    RateLimiting.Context :=
  ⟨route.rateLimit, request.forwarded, request.ip, user.map fun u => u.id.text⟩

/-! ## Refusals -/

/-- The body of an exception. -/
structure ProblemDetails extends Problem where
  instancePath : Option String := none
  requiredRoles : Option (List String) := none
  userRoles : Option (List String) := none
  requiredPermissions : Option (List String) := none
  missingPermissions : Option (List String) := none
  deriving DecidableEq

/-- What is thrown. -/
inductive HttpError where
  /-- `UnauthorizedException`. -/
  | unauthorized (body : ProblemDetails)
  /-- `ForbiddenException`. -/
  | forbidden (body : ProblemDetails)
  /-- `HttpException` with the status 429. -/
  | tooManyRequests (headers : RateLimiting.RateLimitHeaders) (problem : RateLimiting.Problem)
  /-- `undefined.trim()`. -/
  | typeError
  deriving DecidableEq

/-! ## Operations -/

/-- The two throttlers: the one that is registered globally, and the one of the controller. -/
inductive Throttler where
  | global
  | controller
  deriving DecidableEq

/-- The operations that the guards perform. -/
inductive ApiOp where
  | session (o : SessionOp)
  /-- `ThrottlerGuard.canActivate`. -/
  | throttle (t : Throttler) (c : RateLimiting.Context)

/-- What an operation answers. -/
def ApiOp.Ans : ApiOp → Type
  | session o => Except AuthError o.Ans
  | throttle .. => RateLimiting.Decision

/-- The session store, the counters and the clock. -/
structure ApiWorld where
  store : SessionWorld
  throttlers : Throttler → RateLimiting.ThrottlerGuard
  now : RateLimiting.Millis

/-- One operation. -/
def ApiOp.exec (host : SessionHost) : (o : ApiOp) → ApiWorld → Except Empty o.Ans × ApiWorld
  | session o, w => (.ok (o.exec host w.store).1, { w with store := (o.exec host w.store).2 })
  | throttle t c, w =>
    (.ok ((w.throttlers t).canActivate c w.now).1,
      { w with throttlers :=
          Function.update w.throttlers t ((w.throttlers t).canActivate c w.now).2 })

/-- Programs over these operations. -/
abbrev ApiProg (α : Type) : Type := Prog ApiOp (fun o => Except Empty o.Ans) α

/-- What an operation has answered: nothing gets past it. -/
def certain {α : Type} : Except Empty α → α
  | .ok a => a
  | .error e => e.elim

/-- Queries to the session store. -/
def ofSession {α : Type} (p : SessionTask α) : ApiProg (Except AuthError α) :=
  (ExceptT.run p).translate fun o => .op (.session o) fun r => .ret (certain r)

/-- A guard: it may throw. -/
abbrev Guard (α : Type) : Type := ExceptT HttpError ApiProg α

/-- What a guard decides without awaiting anything. -/
def Guard.decide {α : Type} (r : Except HttpError α) : Guard α := ExceptT.mk (pure r)

/-! ## The guards -/

namespace JwtAuthGuard

def tokenExpired : ProblemDetails where
  type := "https://enterprise.system/errors/token-expired"
  title := "Token Expired"
  status := 401
  detail := "Your access token has expired. Please refresh your token."
  code := "TOKEN_EXPIRED"
  instancePath := "/auth/refresh"

def tokenInvalid : ProblemDetails where
  type := "https://enterprise.system/errors/token-invalid"
  title := "Invalid Token"
  status := 401
  detail := "The provided authentication token is invalid."
  code := "TOKEN_INVALID"

/-- Everything else, with the message of the error. -/
def unauthorized (message : Option String) : ProblemDetails where
  type := "https://enterprise.system/errors/unauthorized"
  title := "Unauthorized"
  status := 401
  detail := message.getD "Authentication required to access this resource."
  code := "INVALID_CREDENTIALS"

/-- `handleRequest`, with the messages of `err` and `info`. -/
def handleRequest (err : Option String) (user : Option AuthenticatedUser) (info : Option String) :
    Except HttpError AuthenticatedUser :=
  if info = some "jwt expired" then .error (.unauthorized tokenExpired)
  else if info = some "No auth token" ∨ info = some "invalid token" then
    .error (.unauthorized tokenInvalid)
  else
    match err, user with
    | none, some user => .ok user
    | err, _ => .error (.unauthorized (unauthorized err))

/-- The message of what the strategy throws; `messageOf` is the message of an exception that has
been given a body. -/
def message (messageOf : Problem → String) : AuthError → String
  | .unauthorized problem => messageOf problem
  | .rejected message => message

/-- `super.canActivate(context)`: the strategy, and `handleRequest` on what comes of it. -/
def authenticate (messageOf : Problem → String) (request : Request) : Guard AuthenticatedUser :=
  match request.token with
  | .error info => Guard.decide (handleRequest none none (some info))
  | .ok payload => ExceptT.mk do
    match ← ofSession (JwtStrategy.validate payload) with
    | .error e => pure (handleRequest (some (message messageOf e)) none none)
    | .ok user => pure (handleRequest none (some user) none)

/-- `canActivate`; the user is what `request.user` is afterwards. -/
def canActivate (messageOf : Problem → String) (route : Route) (request : Request) :
    Guard (Option AuthenticatedUser) :=
  if route.getAllAndOverride Metadata.isPublic = some true then pure none
  else do
    let user ← authenticate messageOf request
    return some user

end JwtAuthGuard

/-- The body of both guards when there is no user. -/
def noUser : ProblemDetails where
  type := "https://enterprise.system/errors/unauthorized"
  title := "Unauthorized"
  status := 401
  detail := "Authentication required."
  code := "INVALID_CREDENTIALS"

/-- `RolesGuard.canActivate`. -/
def RolesGuard.canActivate (route : Route) (user : Option AuthenticatedUser) :
    Except HttpError Unit :=
  match route.getAllAndOverride Metadata.roles with
  | none | some [] => .ok ()
  | some requiredRoles =>
    match user with
    | none => .error (.forbidden noUser)
    | some user =>
      if requiredRoles.any (user.roles.contains ·) then .ok ()
      else .error (.forbidden {
        type := "https://enterprise.system/errors/forbidden"
        title := "Forbidden"
        status := 403
        detail := "This action requires one of the following roles: " ++
          ", ".intercalate requiredRoles ++ "."
        code := "FORBIDDEN"
        requiredRoles := requiredRoles
        userRoles := user.roles })

/-- `PermissionsGuard.canActivate`. -/
def PermissionsGuard.canActivate (route : Route) (user : Option AuthenticatedUser) :
    Except HttpError Unit :=
  match route.getAllAndOverride Metadata.permissions with
  | none | some [] => .ok ()
  | some requiredPermissions =>
    match user with
    | none => .error (.forbidden noUser)
    | some user =>
      let missingPermissions := requiredPermissions.filter (! user.permissions.contains ·)
      if 0 < missingPermissions.length then
        .error (.forbidden {
          type := "https://enterprise.system/errors/insufficient-permissions"
          title := "Insufficient Permissions"
          status := 403
          detail := "Missing required permissions: " ++ ", ".intercalate missingPermissions ++ "."
          code := "FORBIDDEN"
          requiredPermissions := requiredPermissions
          missingPermissions := missingPermissions })
      else .ok ()

/-- `ThrottlerGuard.canActivate`, of one of the two throttlers. -/
def throttle (t : Throttler) (c : RateLimiting.Context) : Guard Unit :=
  ExceptT.mk (Prog.op (.throttle t c) fun r =>
    match certain r with
    | .admitted _ => .ret (.ok ())
    | .tooManyRequests headers problem => .ret (.error (.tooManyRequests headers problem))
    | .typeError => .ret (.error .typeError))

/-- The throttlers in front of a route. -/
def Route.throttlers (route : Route) : List Throttler :=
  if route.usesThrottler then [.global, .controller] else [.global]

/-- The guards in front of a handler; the handler gets the user. -/
def activate (messageOf : Problem → String) (route : Route) (request : Request) :
    Guard (Option AuthenticatedUser) := do
  let user ← JwtAuthGuard.canActivate messageOf route request
  Guard.decide (RolesGuard.canActivate route user)
  Guard.decide (PermissionsGuard.canActivate route user)
  route.throttlers.forM fun t => throttle t (route.context request user)
  return user

/-! ## What lets a request through -/

/-- The user of a row of `users`, with its rights. -/
def authenticated (account : Authentication.Account) : AuthenticatedUser where
  id := account.id
  email := account.email
  roles := account.roles.map Role.name
  permissions := (account.roles.flatMap Role.permissions).eraseDups

/-- The user is loaded from two states of the store: in the first one it has a session, and in the
second one its account is active. -/
def Loads (host : SessionHost) (payload : JwtPayload) (w₁ w₂ : SessionWorld)
    (user : AuthenticatedUser) : Prop :=
  ∃ id account, host.uuid? payload.sub = some id ∧ w₁.down = false ∧ Open id w₁ ∧
    w₂.down = false ∧ w₂.users id = some account ∧ account.status = .active ∧
      user = authenticated account

/-- The route is open to a user with these rights. -/
structure Route.Grants (route : Route) (user : Option AuthenticatedUser) : Prop where
  roles : ∀ required, route.getAllAndOverride Metadata.roles = some required → required ≠ [] →
    ∃ u, user = some u ∧ ∃ role ∈ required, role ∈ u.roles
  permissions : ∀ required, route.getAllAndOverride Metadata.permissions = some required →
    required ≠ [] → ∃ u, user = some u ∧ ∀ permission ∈ required, permission ∈ u.permissions

/-- The throttlers let the request pass, each in its state. -/
def Route.Passes (route : Route) (request : Request) (user : Option AuthenticatedUser)
    (seen : List ApiWorld) : Prop :=
  List.Forall₂ (fun t w => ((w.throttlers t).canActivate (route.context request user)
    w.now).1.isAdmitted = true) route.throttlers seen

/-- **The states that let a request through**, as nobody or as a user. -/
def Cleared (host : SessionHost) (route : Route) (request : Request) (seen : List ApiWorld) :
    Option AuthenticatedUser → Prop
  | none => route.getAllAndOverride Metadata.isPublic = some true ∧ route.Grants none ∧
      route.Passes request none seen
  | some user => route.getAllAndOverride Metadata.isPublic ≠ some true ∧
      (∃ payload w₁ w₂ rest, request.token = .ok payload ∧ seen = w₁ :: w₂ :: rest ∧
        Loads host payload w₁.store w₂.store user ∧ route.Passes request (some user) rest) ∧
      route.Grants (some user)

section

variable {host : SessionHost} {messageOf : Problem → String} {route : Route} {request : Request}
  {payload : JwtPayload} {seen : List ApiWorld}

theorem saw_ofSession {α : Type} {p : SessionTask α} {r : Except AuthError α} :
    (ofSession p).Saw (ApiOp.exec host) seen r ↔
      (ExceptT.run p).Saw (SessionOp.exec host) (seen.map ApiWorld.store) r :=
  Prog.saw_translate fun _ _ => rfl

theorem awaits_ofSession {α : Type} {p : SessionTask α} {o : SessionOp} :
    (ofSession p).Awaits (ApiOp.exec host) seen (.session o) ↔
      (ExceptT.run p).Awaits (SessionOp.exec host) (seen.map ApiWorld.store) o :=
  Prog.awaits_translate (fun _ _ h => ApiOp.session.inj h) fun _ _ => rfl

/-- The user has a session in this state. -/
theorem signedIn_iff {id : DbUuid} (hid : host.uuid? payload.sub = some id) {w : SessionWorld} :
    (∃ s, (Task.run (SessionOp.exec host) (SessionTask.findFirst
      { userId := payload.sub, revoked := false }) w).1 = .ok (some s)) ↔
      w.down = false ∧ Open id w := by
  rw [run_findFirst, if_pos (wellTyped_iff.2 ⟨id, hid⟩)]
  cases w.down with
  | true => simp
  | false =>
    simp only [Bool.false_eq_true, if_false, Except.ok.injEq, true_and]
    constructor
    · rintro ⟨s, hs⟩
      obtain ⟨hsub, hopen⟩ := selects_unrevoked.1 (List.find?_some hs)
      exact ⟨s, List.mem_of_find?_eq_some hs, Option.some.inj (hsub.symm.trans hid), hopen⟩
    · rintro ⟨s, hs, huser, hopen⟩
      refine Option.isSome_iff_exists.1 (List.find?_isSome.2 ⟨s, hs, ?_⟩)
      exact selects_unrevoked.2 ⟨huser.symm ▸ hid, hopen⟩

/-- The subject of a token that the client of the database has taken is a UUID. -/
theorem uuid_of_findFirst {w : SessionWorld} {found : Option Authentication.Session}
    (h : (Task.run (SessionOp.exec host) (SessionTask.findFirst
      { userId := payload.sub, revoked := false }) w).1 = .ok found) :
    ∃ id, host.uuid? payload.sub = some id := by
  rw [run_findFirst] at h
  by_contra hnone
  rw [if_neg fun hc => hnone (wellTyped_iff.1 hc)] at h
  split_ifs at h

/-- The account is loaded in this state. -/
theorem findUser_iff {id : DbUuid} (hid : host.uuid? payload.sub = some id) {w : SessionWorld}
    {found : Option Authentication.Account} :
    (Task.run (SessionOp.exec host) (SessionTask.findUser payload.sub) w).1 = .ok found ↔
      w.down = false ∧ w.users id = found := by
  rw [run_findUser, hid]
  cases w.down <;> simp

/-- **The strategy** returns the user that it loads. -/
theorem saw_validate_iff {ss : List SessionWorld} {user : AuthenticatedUser} :
    (ExceptT.run (JwtStrategy.validate payload)).Saw (SessionOp.exec host) ss (.ok user) ↔
      ∃ w₁ w₂, ss = [w₁, w₂] ∧ Loads host payload w₁ w₂ user := by
  constructor
  · intro h
    rcases Prog.saw_exceptBind.1 h with ⟨_, post, found, rfl, hfirst, hrest⟩ | ⟨_, _, he⟩
    swap
    · cases he
    obtain ⟨w₁, rfl, hfound⟩ := Prog.saw_await.1 hfirst
    obtain ⟨id, hid⟩ := uuid_of_findFirst hfound
    cases found with
    | none => cases hrest.2
    | some s =>
      obtain ⟨hup₁, hopen⟩ := (signedIn_iff hid).1 ⟨s, hfound⟩
      rcases Prog.saw_exceptBind.1 hrest with ⟨_, _, account, rfl, hsecond, hlast⟩ | ⟨_, _, he⟩
      swap
      · cases he
      obtain ⟨w₂, rfl, haccount⟩ := Prog.saw_await.1 hsecond
      obtain ⟨hup₂, hloaded⟩ := (findUser_iff hid).1 haccount
      cases account with
      | none => cases hlast.2
      | some account =>
        by_cases hactive : account.status = .active
        · simp only [hactive, if_true] at hlast
          obtain ⟨rfl, huser⟩ := hlast
          cases huser
          exact ⟨w₁, w₂, rfl, id, account, hid, hup₁, hopen, hup₂, hloaded, hactive, rfl⟩
        · simp only [hactive, if_false] at hlast
          cases hlast.2
  · rintro ⟨w₁, w₂, rfl, id, account, hid, hup₁, hopen, hup₂, hloaded, hactive, rfl⟩
    obtain ⟨s, hs⟩ := (signedIn_iff hid).2 ⟨hup₁, hopen⟩
    refine Prog.saw_exceptBind.2 (Or.inl ⟨[w₁], [w₂], some s, rfl,
      Prog.saw_await.2 ⟨w₁, rfl, hs⟩, ?_⟩)
    refine Prog.saw_exceptBind.2 (Or.inl ⟨[w₂], [], some account, rfl,
      Prog.saw_await.2 ⟨w₂, rfl, (findUser_iff hid).2 ⟨hup₂, hloaded⟩⟩, ?_⟩)
    simp only [hactive, if_true]
    exact ⟨rfl, rfl⟩

/-- Where no query fails on its own account, the strategy fails with an exception of its own. -/
theorem unauthorized_of_saw {ss : List SessionWorld} {id : DbUuid} {e : AuthError}
    (hid : host.uuid? payload.sub = some id) (hup : ∀ w ∈ ss, w.down = false)
    (h : (ExceptT.run (JwtStrategy.validate payload)).Saw (SessionOp.exec host) ss (.error e)) :
    ∃ problem, e = .unauthorized problem := by
  rcases Prog.saw_exceptBind.1 h with ⟨_, post, found, rfl, hfirst, hrest⟩ | ⟨e', hfirst, he⟩
  swap
  · obtain ⟨w₁, rfl, hfails⟩ := Prog.saw_await.1 hfirst
    replace hfails : (Task.run (SessionOp.exec host) (SessionTask.findFirst
      { userId := payload.sub, revoked := false }) w₁).1 = .error e' := hfails
    rw [run_findFirst, if_pos (wellTyped_iff.2 ⟨id, hid⟩), hup w₁ (by simp)] at hfails
    cases hfails
  obtain ⟨w₁, rfl, -⟩ := Prog.saw_await.1 hfirst
  cases found with
  | none =>
    cases hrest.2
    exact ⟨_, rfl⟩
  | some s =>
    rcases Prog.saw_exceptBind.1 hrest with ⟨_, _, account, rfl, -, hlast⟩ | ⟨e', hsecond, he⟩
    · cases account with
      | none =>
        cases hlast.2
        exact ⟨_, rfl⟩
      | some account =>
        by_cases hactive : account.status = .active
        · simp only [hactive, if_true] at hlast
          cases hlast.2
        · simp only [hactive, if_false] at hlast
          cases hlast.2
          exact ⟨_, rfl⟩
    · obtain ⟨w₂, rfl, hfails⟩ := Prog.saw_await.1 hsecond
      replace hfails : (Task.run (SessionOp.exec host) (SessionTask.findUser payload.sub) w₂).1 =
        .error e' := hfails
      rw [run_findUser, hid, hup w₂ (by simp)] at hfails
      cases hfails

/-! ### Each guard -/

@[simp] theorem saw_decide {α : Type} {r r' : Except HttpError α} :
    (ExceptT.run (Guard.decide r)).Saw (ApiOp.exec host) seen r' ↔ seen = [] ∧ r = r' := Iff.rfl

theorem handleRequest_ok_iff {err : Option String} {user : Option AuthenticatedUser}
    {u : AuthenticatedUser} :
    JwtAuthGuard.handleRequest err user none = .ok u ↔ err = none ∧ user = some u := by
  cases err <;> cases user <;> simp [JwtAuthGuard.handleRequest]

/-- A token that `passport-jwt` has not verified is refused. -/
theorem handleRequest_info {info : String} {u : AuthenticatedUser} :
    JwtAuthGuard.handleRequest none none (some info) ≠ .ok u := by
  unfold JwtAuthGuard.handleRequest
  split_ifs <;> simp

theorem saw_authenticate_iff {user : AuthenticatedUser} :
    (ExceptT.run (JwtAuthGuard.authenticate messageOf request)).Saw (ApiOp.exec host) seen
      (.ok user) ↔ ∃ payload w₁ w₂, request.token = .ok payload ∧ seen = [w₁, w₂] ∧
        Loads host payload w₁.store w₂.store user := by
  cases htoken : request.token with
  | error info =>
    rw [JwtAuthGuard.authenticate, htoken]
    simp [handleRequest_info]
  | ok payload =>
    rw [JwtAuthGuard.authenticate, htoken]
    constructor
    · intro h
      obtain ⟨pre, post, r, rfl, hpre, hpost⟩ := Prog.saw_bind.1 h
      rw [saw_ofSession] at hpre
      cases r with
      | error e =>
        obtain ⟨-, hhandled⟩ := hpost
        cases (handleRequest_ok_iff.1 hhandled).1
      | ok u =>
        obtain ⟨rfl, hhandled⟩ := hpost
        obtain ⟨-, huser⟩ := handleRequest_ok_iff.1 hhandled
        cases huser
        obtain ⟨w₁, w₂, hmap, hloads⟩ := saw_validate_iff.1 hpre
        obtain ⟨v₁, _, rfl, rfl, hmap'⟩ := List.map_eq_cons_iff.1 hmap
        obtain ⟨v₂, _, rfl, rfl, hnil⟩ := List.map_eq_cons_iff.1 hmap'
        obtain rfl := List.map_eq_nil_iff.1 hnil
        exact ⟨payload, v₁, v₂, rfl, rfl, hloads⟩
    · rintro ⟨payload', w₁, w₂, hpayload, rfl, hloads⟩
      cases hpayload
      refine Prog.saw_bind.2 ⟨[w₁, w₂], [], .ok user, rfl, saw_ofSession.2 ?_, rfl, ?_⟩
      · exact saw_validate_iff.2 ⟨_, _, rfl, hloads⟩
      · exact handleRequest_ok_iff.2 ⟨rfl, rfl⟩

theorem rolesGuard_iff {user : Option AuthenticatedUser} :
    RolesGuard.canActivate route user = .ok () ↔
      ∀ required, route.getAllAndOverride Metadata.roles = some required → required ≠ [] →
        ∃ u, user = some u ∧ ∃ role ∈ required, role ∈ u.roles := by
  rw [RolesGuard.canActivate]
  cases route.getAllAndOverride Metadata.roles with
  | none => simp
  | some required =>
    cases required with
    | nil => simp
    | cons role required =>
      cases user with
      | none => simp
      | some user => simp [-List.any_cons, or_iff_not_imp_left]

theorem permissionsGuard_iff {user : Option AuthenticatedUser} :
    PermissionsGuard.canActivate route user = .ok () ↔
      ∀ required, route.getAllAndOverride Metadata.permissions = some required → required ≠ [] →
        ∃ u, user = some u ∧ ∀ permission ∈ required, permission ∈ u.permissions := by
  rw [PermissionsGuard.canActivate]
  cases route.getAllAndOverride Metadata.permissions with
  | none => simp
  | some required =>
    cases required with
    | nil => simp
    | cons permission required =>
      cases user with
      | none => simp
      | some user => simp

theorem grants_iff {user : Option AuthenticatedUser} :
    route.Grants user ↔ RolesGuard.canActivate route user = .ok () ∧
      PermissionsGuard.canActivate route user = .ok () := by
  rw [rolesGuard_iff, permissionsGuard_iff]
  exact ⟨fun h => ⟨h.roles, h.permissions⟩, fun h => ⟨h.1, h.2⟩⟩

theorem saw_throttle_iff {t : Throttler} {c : RateLimiting.Context} :
    (ExceptT.run (throttle t c)).Saw (ApiOp.exec host) seen (.ok ()) ↔
      ∃ w, seen = [w] ∧ ((w.throttlers t).canActivate c w.now).1.isAdmitted = true := by
  constructor
  · rintro ⟨w, rest, rfl, h⟩
    refine ⟨w, ?_⟩
    simp only [ApiOp.exec, certain] at h
    cases hd : ((w.throttlers t).canActivate c w.now).1 with
    | admitted headers =>
      rw [hd] at h
      obtain ⟨rfl, -⟩ := h
      exact ⟨rfl, rfl⟩
    | tooManyRequests headers problem =>
      rw [hd] at h
      cases h.2
    | typeError =>
      rw [hd] at h
      cases h.2
  · rintro ⟨w, rfl, h⟩
    refine ⟨w, [], rfl, ?_⟩
    simp only [ApiOp.exec, certain]
    cases hd : ((w.throttlers t).canActivate c w.now).1 with
    | admitted headers => exact ⟨rfl, rfl⟩
    | tooManyRequests headers problem =>
      rw [hd] at h
      cases h
    | typeError =>
      rw [hd] at h
      cases h

theorem saw_throttlers_iff {ts : List Throttler} {c : RateLimiting.Context} :
    (ExceptT.run (ts.forM fun t => throttle t c)).Saw (ApiOp.exec host) seen (.ok ()) ↔
      List.Forall₂ (fun t w => ((w.throttlers t).canActivate c w.now).1.isAdmitted = true) ts
        seen := by
  induction ts generalizing seen with
  | nil => simp
  | cons t ts ih =>
    rw [List.forall₂_cons_left_iff]
    show (ExceptT.run (throttle t c >>= fun _ => ts.forM fun t => throttle t c)).Saw _ _ _ ↔ _
    constructor
    · intro h
      rcases Prog.saw_exceptBind.1 h with ⟨_, post, _, rfl, hfirst, hrest⟩ | ⟨_, _, he⟩
      swap
      · cases he
      obtain ⟨w, rfl, hadmitted⟩ := saw_throttle_iff.1 hfirst
      exact ⟨w, post, hadmitted, ih.1 hrest, rfl⟩
    · rintro ⟨w, post, hadmitted, hrest, rfl⟩
      exact Prog.saw_exceptBind.2 (Or.inl ⟨[w], post, (), rfl,
        saw_throttle_iff.2 ⟨w, rfl, hadmitted⟩, ih.2 hrest⟩)

/-! ### All guards -/

/-- What comes after the user is known. -/
theorem saw_rest_iff {user user' : Option AuthenticatedUser} :
    (ExceptT.run (do
      Guard.decide (RolesGuard.canActivate route user)
      Guard.decide (PermissionsGuard.canActivate route user)
      route.throttlers.forM fun t => throttle t (route.context request user)
      return user : Guard (Option AuthenticatedUser))).Saw (ApiOp.exec host) seen (.ok user') ↔
      route.Grants user ∧ route.Passes request user seen ∧ user = user' := by
  rw [grants_iff]
  constructor
  · intro h
    rcases Prog.saw_exceptBind.1 h with ⟨_, post, _, rfl, hroles, h⟩ | ⟨_, _, he⟩
    swap
    · cases he
    rcases Prog.saw_exceptBind.1 h with ⟨_, post, _, rfl, hpermissions, h⟩ | ⟨_, _, he⟩
    swap
    · cases he
    rcases Prog.saw_exceptBind.1 h with ⟨pre, _, _, rfl, hthrottled, hreturn⟩ | ⟨_, _, he⟩
    swap
    · cases he
    obtain ⟨rfl, hrole⟩ := saw_decide.1 hroles
    obtain ⟨rfl, hpermission⟩ := saw_decide.1 hpermissions
    obtain ⟨rfl, huser⟩ := hreturn
    cases huser
    rw [List.nil_append, List.nil_append, List.append_nil]
    exact ⟨⟨hrole, hpermission⟩, saw_throttlers_iff.1 hthrottled, rfl⟩
  · rintro ⟨⟨hroles, hpermissions⟩, hpasses, rfl⟩
    refine Prog.saw_exceptBind.2 (Or.inl ⟨[], seen, (), rfl, ⟨rfl, hroles⟩, ?_⟩)
    refine Prog.saw_exceptBind.2 (Or.inl ⟨[], seen, (), rfl, ⟨rfl, hpermissions⟩, ?_⟩)
    exact Prog.saw_exceptBind.2 (Or.inl ⟨seen, [], (), (List.append_nil seen).symm,
      saw_throttlers_iff.2 hpasses, rfl, rfl⟩)

/-- **The guards** let a request through in the states that clear it. -/
theorem saw_activate_iff {user : Option AuthenticatedUser} :
    (ExceptT.run (activate messageOf route request)).Saw (ApiOp.exec host) seen (.ok user) ↔
      Cleared host route request seen user := by
  rw [activate, JwtAuthGuard.canActivate]
  by_cases hpublic : route.getAllAndOverride Metadata.isPublic = some true
  · rw [if_pos hpublic, pure_bind, saw_rest_iff]
    cases user with
    | none => simp [Cleared, hpublic]
    | some user => simp [Cleared, hpublic]
  · rw [if_neg hpublic, bind_assoc]
    constructor
    · intro h
      rcases Prog.saw_exceptBind.1 h with ⟨pre, post, u, rfl, hpre, hpost⟩ | ⟨_, _, he⟩
      swap
      · cases he
      rw [pure_bind, saw_rest_iff] at hpost
      obtain ⟨hgrants, hpasses, rfl⟩ := hpost
      obtain ⟨payload, w₁, w₂, htoken, rfl, hloads⟩ := saw_authenticate_iff.1 hpre
      exact ⟨hpublic, ⟨payload, w₁, w₂, post, htoken, rfl, hloads, hpasses⟩, hgrants⟩
    · intro h
      cases user with
      | none => exact absurd h.1 hpublic
      | some user =>
        obtain ⟨-, ⟨payload, w₁, w₂, rest, htoken, rfl, hloads, hpasses⟩, hgrants⟩ := h
        refine Prog.saw_exceptBind.2 (Or.inl ⟨[w₁, w₂], rest, user, rfl,
          saw_authenticate_iff.2 ⟨payload, w₁, w₂, htoken, rfl, hloads⟩, ?_⟩)
        rw [pure_bind, saw_rest_iff]
        exact ⟨hgrants, hpasses, rfl⟩

end

end EnterpriseSystem.Authorization
