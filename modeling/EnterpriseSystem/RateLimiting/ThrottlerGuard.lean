import EnterpriseSystem.Base.FixedWindow
import EnterpriseSystem.Base.Reactive
import EnterpriseSystem.Identity.Values

/-!
# The rate limit of the HTTP interface

`ThrottlerGuard` of `src/security/rate-limiting/throttler.guard.ts`: a counter
for each key, with the time at which it starts anew.

* `Request`, `Context`, `getClientIp`, `Context.key` — what the guard reads of a
  request, and the key it counts it under.
* `ThrottlerGuard.canActivate`, `cleanup` — its methods; `ThrottlerGuard.step`
  — the guard as a machine, `decisions` — what it decides along a timeline.
* `admissions` — when the requests of a key are admitted.
* `admissions_until_reset` — in what is left of a window only what is left of the
  limit is admitted; `admissions_from` — from any time on, two limits at most
  within one window's length.
* `decisions_filter` — the cleanup is not noticed.
* `throttler_bound` — the three together.
-/

namespace EnterpriseSystem.RateLimiting

open Reactive FixedWindow Identity

/-! ## Requests -/

/-- A number of milliseconds. -/
abbrev Millis : Type := ℚ

/-- The header `x-forwarded-for`. -/
inductive Forwarded where
  | absent
  | text (value : String)
  | array (values : List String)
  deriving DecidableEq

/-- What the guard reads of a request. -/
structure Request where
  forwarded : Forwarded
  ip : Option String
  /-- `request.user?.id`. -/
  userId : Option String
  deriving DecidableEq

/-- `RateLimitOptions`. -/
structure RateLimitOptions where
  limit : ℕ
  windowSeconds : ℚ
  keyPrefix : Option String
  deriving DecidableEq

/-- A request for a handler, with what the decorator has set for it. -/
structure Context where
  customLimit : Option RateLimitOptions
  request : Request
  deriving DecidableEq

/-- `forwarded.split(',')[0]`. -/
def firstPart (s : String) : String := String.ofList (s.toList.takeWhile (· ≠ ','))

/-- `getClientIp`; of an empty array there is nothing to trim. -/
def getClientIp (request : Request) : Option String :=
  let address := request.ip.getD "127.0.0.1"
  match request.forwarded with
  | .absent => some address
  | .text value => some (if value = "" then address else trim (firstPart value))
  | .array values => values.head?.map trim

/-! ## The guard -/

/-- `RateLimitEntry`. -/
abbrev RateLimitEntry : Type := Window Millis

/-- `ThrottlerGuard`. -/
structure ThrottlerGuard where
  defaultLimit : ℕ
  defaultWindow : ℚ
  store : String → Option RateLimitEntry

/-- The headers of a response, as numbers. -/
structure RateLimitHeaders where
  limit : ℕ
  remaining : ℕ
  reset : ℤ
  retryAfter : Option ℤ
  deriving DecidableEq

/-- The body of a refusal. -/
structure Problem where
  type : String
  title : String
  status : ℕ
  detail : String
  code : String
  retryAfter : ℤ
  deriving DecidableEq

/-- What becomes of a request. -/
inductive Decision where
  | admitted (headers : RateLimitHeaders)
  /-- `HttpException`. -/
  | tooManyRequests (headers : RateLimitHeaders) (problem : Problem)
  /-- `undefined.trim()`. -/
  | typeError
  deriving DecidableEq

/-- The guard lets the request through. -/
def Decision.isAdmitted : Decision → Bool
  | admitted _ => true
  | _ => false

/-- What a handler's requests are held to. -/
structure Limits where
  limit : ℕ
  windowSeconds : ℚ
  keyPrefix : String
  deriving DecidableEq

/-- `windowMs`. -/
def Limits.windowMs (l : Limits) : Millis := l.windowSeconds * 1000

namespace ThrottlerGuard

/-- A guard that has seen no request. -/
def new (defaultLimit : ℕ) (defaultWindow : ℚ) : ThrottlerGuard :=
  ⟨defaultLimit, defaultWindow, fun _ => none⟩

/-- The limits of a handler: its own or the defaults. -/
def limits (g : ThrottlerGuard) (c : Context) : Limits :=
  { limit := (c.customLimit.map (·.limit)).getD g.defaultLimit
    windowSeconds := (c.customLimit.map (·.windowSeconds)).getD g.defaultWindow
    keyPrefix := (c.customLimit.bind (·.keyPrefix)).getD "rl" }

/-- The key a request is counted under. -/
def key (g : ThrottlerGuard) (c : Context) : Option String :=
  let keyPrefix := (g.limits c).keyPrefix
  (getClientIp c.request).map fun clientIp =>
    match c.request.userId with
    | none => s!"{keyPrefix}:ip:{clientIp}"
    | some userId =>
      if userId = "" then s!"{keyPrefix}:ip:{clientIp}" else s!"{keyPrefix}:user:{userId}"

/-- `this.store.set(key, entry)`. -/
def set (g : ThrottlerGuard) (key : String) (entry : RateLimitEntry) : ThrottlerGuard :=
  { g with store := Function.update g.store key (some entry) }

/-- `setRateLimitHeaders`. -/
def headers (limit remaining : ℕ) (windowSeconds : ℚ) (now : Millis) : RateLimitHeaders :=
  { limit := limit, remaining := remaining, reset := ⌈(now + windowSeconds * 1000) / 1000⌉,
    retryAfter := none }

/-- `canActivate` under a key. -/
def count (g : ThrottlerGuard) (l : Limits) (key : String) (now : Millis) :
    Decision × ThrottlerGuard :=
  let fresh := (Decision.admitted (headers l.limit (l.limit - 1) l.windowSeconds now),
    g.set key ⟨1, now + l.windowMs⟩)
  match g.store key with
  | none => fresh
  | some entry =>
    if entry.resetTime < now then fresh
    else if l.limit ≤ entry.count then
      let retryAfter := ⌈(entry.resetTime - now) / 1000⌉
      (.tooManyRequests
        { limit := l.limit, remaining := 0, reset := ⌈entry.resetTime / 1000⌉,
          retryAfter := some retryAfter }
        { type := "https://enterprise.system/errors/rate-limited", title := "Too Many Requests",
          status := 429, detail := s!"Rate limit exceeded. Try again in {retryAfter} seconds.",
          code := "TOO_MANY_ATTEMPTS", retryAfter := retryAfter }, g)
    else
      (.admitted (headers l.limit (l.limit - (entry.count + 1)) l.windowSeconds now),
        g.set key { entry with count := entry.count + 1 })

/-- `canActivate`. -/
def canActivate (g : ThrottlerGuard) (c : Context) (now : Millis) : Decision × ThrottlerGuard :=
  match g.key c with
  | none => (.typeError, g)
  | some key => g.count (g.limits c) key now

/-- `cleanup`. -/
def cleanup (g : ThrottlerGuard) (now : Millis) : ThrottlerGuard :=
  { g with store := fun key => (g.store key).filter fun entry => ¬ entry.resetTime < now }

end ThrottlerGuard

/-! ## Timelines -/

/-- What happens to the guard. -/
inductive Event where
  | request (c : Context) (now : Millis)
  | cleanup (now : Millis)
  deriving DecidableEq

/-- When. -/
def Event.time : Event → Millis
  | request _ now => now
  | cleanup now => now

/-- Whether it is a request. -/
def Event.isRequest : Event → Bool
  | request _ _ => true
  | cleanup _ => false

/-- Times do not go back. -/
def Timeline (events : List Event) : Prop := events.Pairwise fun e e' => e.time ≤ e'.time

/-- The guard as a machine: it decides requests only. -/
def ThrottlerGuard.step : Machine ThrottlerGuard Event (Option Decision) := fun g e => match e with
  | .request c now => ((g.canActivate c now).1, (g.canActivate c now).2)
  | .cleanup now => (none, g.cleanup now)

/-- The guard after a timeline. -/
def ThrottlerGuard.after (g : ThrottlerGuard) (events : List Event) : ThrottlerGuard :=
  Machine.after ThrottlerGuard.step g events

/-- What the guard decides along a timeline. -/
def ThrottlerGuard.decisions (g : ThrottlerGuard) (events : List Event) : List Decision :=
  (Machine.observe ThrottlerGuard.step g events).reduceOption

/-- The guard admits a request of `key`. -/
def ThrottlerGuard.admits (g : ThrottlerGuard) (key : String) : Event → Bool
  | .request c now => decide (g.key c = some key) && (g.canActivate c now).1.isAdmitted
  | .cleanup _ => false

/-- For each event of a timeline its time, and whether a request of `key` is admitted. -/
def ThrottlerGuard.course (key : String) : ThrottlerGuard → List Event → List (Millis × Bool)
  | _, [] => []
  | g, e :: events => (e.time, g.admits key e) :: course key (g.step e).2 events

/-- A request of `key` at this moment opens a window. -/
def ThrottlerGuard.Opens (g : ThrottlerGuard) (key : String) : Event → Prop
  | .request c now => g.key c = some key ∧ ∀ entry, g.store key = some entry → entry.resetTime < now
  | .cleanup _ => False

/-- Every request of `key` is held to one limit in one window. -/
def ThrottlerGuard.HeldTo (g : ThrottlerGuard) (key : String) (limit : ℕ) (window : Millis)
    (events : List Event) : Prop :=
  ∀ c now, Event.request c now ∈ events → g.key c = some key →
    (g.limits c).limit = limit ∧ (g.limits c).windowMs = window

/-! ## One step -/

namespace ThrottlerGuard

variable {g : ThrottlerGuard} {key : String} {limit : ℕ} {window now : Millis} {e : Event}
  {events : List Event}

@[simp] theorem store_set_self (key : String) (entry : RateLimitEntry) :
    (g.set key entry).store key = some entry := Function.update_self ..

theorem store_set_of_ne {key' : String} (h : key' ≠ key) (entry : RateLimitEntry) :
    (g.set key entry).store key' = g.store key' := Function.update_of_ne h ..

/-- A request moves the window of its key. -/
theorem move_count (g : ThrottlerGuard) (l : Limits) (key : String) (now : Millis) :
    Move l.limit l.windowMs now (g.store key) (g.count l key now).1.isAdmitted
      ((g.count l key now).2.store key) := by
  unfold count
  cases hentry : g.store key with
  | none =>
    show Move _ _ _ none true ((g.set key _).store key)
    rw [store_set_self]
    exact .opens nofun
  | some entry =>
    dsimp only
    split_ifs with hover hfull
    · show Move _ _ _ (some entry) true ((g.set key _).store key)
      rw [store_set_self]
      exact .opens (by rintro old ⟨⟩; exact hover)
    · show Move _ _ _ (some entry) false (g.store key)
      rw [hentry]
      exact .rests _
    · show Move _ _ _ (some entry) true ((g.set key _).store key)
      rw [store_set_self]
      exact .counts (not_lt.1 hover) (not_le.1 hfull)

/-- A request leaves the other keys alone. -/
theorem store_count_of_ne {key' : String} (h : key' ≠ key) (l : Limits) :
    (g.count l key now).2.store key' = g.store key' := by
  unfold count
  cases g.store key with
  | none => exact store_set_of_ne h _
  | some entry =>
    dsimp only
    split_ifs
    · exact store_set_of_ne h _
    · rfl
    · exact store_set_of_ne h _

/-- Every event leaves the defaults alone. -/
theorem defaults_step (g : ThrottlerGuard) (e : Event) :
    (g.step e).2.defaultLimit = g.defaultLimit ∧ (g.step e).2.defaultWindow = g.defaultWindow := by
  cases e with
  | cleanup now => exact ⟨rfl, rfl⟩
  | request c now =>
    show (g.canActivate c now).2.defaultLimit = _ ∧ (g.canActivate c now).2.defaultWindow = _
    unfold canActivate
    cases g.key c with
    | none => exact ⟨rfl, rfl⟩
    | some key =>
      dsimp only
      unfold count
      cases g.store key with
      | none => exact ⟨rfl, rfl⟩
      | some entry =>
        dsimp only
        split_ifs <;> exact ⟨rfl, rfl⟩

theorem limits_step (g : ThrottlerGuard) (e : Event) (c : Context) :
    (g.step e).2.limits c = g.limits c := by
  unfold limits
  rw [(g.defaults_step e).1, (g.defaults_step e).2]

theorem key_step (g : ThrottlerGuard) (e : Event) (c : Context) :
    (g.step e).2.key c = g.key c := by
  unfold ThrottlerGuard.key
  rw [limits_step]

/-- **Every event** moves the window of `key`. -/
theorem move_step (h : g.HeldTo key limit window [e]) :
    Move limit window e.time (g.store key) (g.admits key e) ((g.step e).2.store key) := by
  cases e with
  | cleanup now =>
    show Move _ _ now (g.store key) false ((g.store key).filter fun entry => ¬ entry.resetTime < now)
    cases g.store key with
    | none => exact .rests _
    | some entry =>
      by_cases hover : entry.resetTime < now
      · simp only [Option.filter, hover, not_true_eq_false, decide_false]
        exact .expires hover
      · simp only [Option.filter, hover, not_false_eq_true, decide_true, if_true]
        exact .rests _
  | request c now =>
    show Move _ _ now (g.store key) (decide (g.key c = some key) && (g.canActivate c now).1.isAdmitted)
      ((g.canActivate c now).2.store key)
    by_cases hkey : g.key c = some key
    · obtain ⟨rfl, rfl⟩ := h c now (List.mem_singleton_self _) hkey
      have hactivate : g.canActivate c now = g.count (g.limits c) key now := by
        unfold canActivate
        rw [hkey]
      rw [hactivate, decide_eq_true hkey, Bool.true_and]
      exact move_count g (g.limits c) key now
    · rw [decide_eq_false hkey, Bool.false_and]
      have hrests : (g.canActivate c now).2.store key = g.store key := by
        unfold canActivate
        cases hother : g.key c with
        | none => rfl
        | some key' =>
          refine store_count_of_ne ?_ _
          rintro rfl
          exact hkey hother
      rw [hrests]
      exact .rests _

theorem HeldTo.head (h : g.HeldTo key limit window (e :: events)) :
    g.HeldTo key limit window [e] := fun c now hmem =>
  h c now (by rw [List.mem_singleton.1 hmem]; exact List.mem_cons_self ..)

theorem HeldTo.tail (h : g.HeldTo key limit window (e :: events)) :
    (g.step e).2.HeldTo key limit window events := by
  intro c now hmem hkey
  rw [key_step] at hkey
  rw [limits_step]
  exact h c now (List.mem_cons_of_mem _ hmem) hkey

/-- **A timeline** is a course of the window of `key`. -/
theorem course_of_heldTo (h : g.HeldTo key limit window events) :
    Course limit window (g.store key) (g.course key events) := by
  induction events generalizing g with
  | nil => exact .nil _
  | cons e events ih => exact .cons (move_step h.head) (ih h.tail)

theorem map_fst_course (g : ThrottlerGuard) (key : String) (events : List Event) :
    (g.course key events).map Prod.fst = events.map Event.time := by
  induction events generalizing g with
  | nil => rfl
  | cons e events ih => exact congrArg (e.time :: ·) (ih _)

theorem ordered_course (htimes : Timeline events) : Ordered (g.course key events) := by
  have hmap : ((g.course key events).map Prod.fst).Pairwise (· ≤ ·) := by
    rw [map_fst_course, List.pairwise_map]
    exact htimes
  exact List.pairwise_map.1 hmap

/-! ## The cleanup -/

/-- The guards differ in entries whose windows are over by `now`. -/
structure Alike (now : Millis) (g g' : ThrottlerGuard) : Prop where
  limit : g.defaultLimit = g'.defaultLimit
  window : g.defaultWindow = g'.defaultWindow
  store : ∀ key, g.store key = g'.store key ∨
    g.store key = none ∧ ∃ entry, g'.store key = some entry ∧ entry.resetTime < now

variable {g' : ThrottlerGuard}

theorem Alike.refl (now : Millis) (g : ThrottlerGuard) : Alike now g g :=
  ⟨rfl, rfl, fun _ => .inl rfl⟩

theorem Alike.limits_eq {before : Millis} (h : Alike before g g') (c : Context) :
    g.limits c = g'.limits c := by
  unfold limits
  rw [h.limit, h.window]

theorem Alike.key_eq {before : Millis} (h : Alike before g g') (c : Context) :
    g.key c = g'.key c := by
  unfold ThrottlerGuard.key
  rw [h.limits_eq]

theorem Alike.later {before : Millis} (h : Alike before g g') (hle : before ≤ now) :
    Alike now g g' :=
  ⟨h.limit, h.window, fun key => (h.store key).imp_right fun ⟨hnone, entry, hentry, hover⟩ =>
    ⟨hnone, entry, hentry, hover.trans_le hle⟩⟩

theorem Alike.set (h : Alike now g g') (key : String) (entry : RateLimitEntry) :
    Alike now (g.set key entry) (g'.set key entry) := by
  refine ⟨h.limit, h.window, fun key' => ?_⟩
  by_cases hkey : key' = key
  · subst hkey
    exact .inl (by rw [store_set_self, store_set_self])
  · rw [store_set_of_ne hkey, store_set_of_ne hkey]
    exact h.store key'

/-- They decide a request alike. -/
theorem Alike.count (h : Alike now g g') (l : Limits) (key : String) :
    (g.count l key now).1 = (g'.count l key now).1 ∧
      Alike now (g.count l key now).2 (g'.count l key now).2 := by
  rcases h.store key with hsame | ⟨hnone, old, hold, hover⟩
  · unfold ThrottlerGuard.count
    rw [hsame]
    cases g'.store key with
    | none => exact ⟨rfl, h.set _ _⟩
    | some entry =>
      dsimp only
      split_ifs
      · exact ⟨rfl, h.set _ _⟩
      · exact ⟨rfl, h⟩
      · exact ⟨rfl, h.set _ _⟩
  · unfold ThrottlerGuard.count
    rw [hnone, hold]
    dsimp only
    rw [if_pos hover]
    exact ⟨rfl, h.set _ _⟩

theorem Alike.canActivate (h : Alike now g g') (c : Context) :
    (g.canActivate c now).1 = (g'.canActivate c now).1 ∧
      Alike now (g.canActivate c now).2 (g'.canActivate c now).2 := by
  unfold ThrottlerGuard.canActivate
  rw [h.key_eq]
  cases g'.key c with
  | none => exact ⟨rfl, h⟩
  | some key =>
    dsimp only
    rw [h.limits_eq]
    exact h.count _ _

theorem Alike.cleanup (h : Alike now g g') : Alike now (g.cleanup now) g' := by
  refine ⟨h.limit, h.window, fun key => ?_⟩
  show (g.store key).filter (fun entry => ¬ entry.resetTime < now) = g'.store key ∨
    (g.store key).filter (fun entry => ¬ entry.resetTime < now) = none ∧ _
  rcases h.store key with hsame | ⟨hnone, hover⟩
  · rw [hsame]
    cases hentry : g'.store key with
    | none => exact .inl rfl
    | some entry =>
      by_cases hover : entry.resetTime < now
      · refine .inr ⟨?_, entry, rfl, hover⟩
        simp [Option.filter, hover]
      · exact .inl (by simp [Option.filter, hover])
  · exact .inr ⟨by rw [hnone]; rfl, hover⟩

theorem decisions_request (g : ThrottlerGuard) (c : Context) (now : Millis)
    (events : List Event) : g.decisions (.request c now :: events) =
      (g.canActivate c now).1 :: (g.canActivate c now).2.decisions events := rfl

theorem decisions_cleanup (g : ThrottlerGuard) (now : Millis) (events : List Event) :
    g.decisions (.cleanup now :: events) = (g.cleanup now).decisions events := rfl

theorem Alike.decisions {before : Millis} (h : Alike before g g') (htimes : Timeline events)
    (hfrom : ∀ e ∈ events, before ≤ e.time) :
    g.decisions events = g'.decisions (events.filter Event.isRequest) := by
  induction events generalizing before g g' with
  | nil => rfl
  | cons e events ih =>
    obtain ⟨hhead, htail⟩ := List.pairwise_cons.1 htimes
    cases e with
    | request c now =>
      have hlater : Alike now g g' := h.later (hfrom _ (List.mem_cons_self ..))
      obtain ⟨hdecision, hnext⟩ := hlater.canActivate c
      rw [List.filter_cons_of_pos rfl, decisions_request, decisions_request, hdecision]
      exact congrArg _ (ih hnext htail hhead)
    | cleanup now =>
      rw [List.filter_cons_of_neg Bool.false_ne_true, decisions_cleanup]
      have hlater : Alike now g g' := h.later (hfrom _ (List.mem_cons_self ..))
      exact ih hlater.cleanup htail hhead

/-- **The cleanup** changes no decision. -/
theorem decisions_filter (g : ThrottlerGuard) (htimes : Timeline events) :
    g.decisions events = g.decisions (events.filter Event.isRequest) := by
  cases events with
  | nil => rfl
  | cons e events =>
    refine (Alike.refl e.time g).decisions htimes fun e' he' => ?_
    rcases List.mem_cons.1 he' with rfl | he'
    · exact le_rfl
    · exact (List.pairwise_cons.1 htimes).1 e' he'

end ThrottlerGuard

/-! ## The bound -/

/-- What the limit promises of a key along a timeline. -/
structure ThrottlerBound (g : ThrottlerGuard) (key : String) (limit : ℕ) (window : Millis)
    (events : List Event) : Prop where
  /-- From the opening of a window to its reset time. -/
  inWindow : ∀ pre e post, events = pre ++ e :: post → (g.after pre).Opens key e →
    admittedUntil ((g.after pre).course key (e :: post)) (e.time + window) ≤ limit
  /-- In a closed interval of the length of a window. -/
  inInterval : ∀ a, admittedIn (g.course key events) a (a + window) ≤ 2 * limit
  /-- Without the cleanups, every decision is the same. -/
  unnoticed : g.decisions events = g.decisions (events.filter Event.isRequest)

namespace ThrottlerGuard

variable {g : ThrottlerGuard} {key : String} {limit : ℕ} {window : Millis} {e : Event}
  {pre post : List Event}

theorem HeldTo.after (h : g.HeldTo key limit window (pre ++ post)) :
    (g.after pre).HeldTo key limit window post := by
  induction pre generalizing g with
  | nil => exact h
  | cons e pre ih => exact ih h.tail

/-- A window that opens at an event admits no more than the limit. -/
theorem admittedUntil_of_opens (htimes : Timeline (e :: post)) (hlimit : 1 ≤ limit)
    (h : g.HeldTo key limit window (e :: post)) (hopens : g.Opens key e) :
    admittedUntil (g.course key (e :: post)) (e.time + window) ≤ limit := by
  have hordered : Ordered (g.course key (e :: post)) := ordered_course htimes
  have hfrom : ∀ p ∈ g.course key (e :: post), e.time ≤ p.1 := hordered.forall_le le_rfl
  refine admitted_between (course_of_heldTo h) hordered hlimit hfrom fun v hv p hp => ?_
  cases e with
  | cleanup now => exact hopens.elim
  | request c now => exact (hopens.2 v hv).trans_le (hfrom p hp)

end ThrottlerGuard

/-- **The limit of a key** that is used with one limit and one window. -/
theorem throttler_bound (defaultLimit : ℕ) (defaultWindow : ℚ) {events : List Event}
    (htimes : Timeline events) {key : String} {limit : ℕ} {window : Millis} (hlimit : 1 ≤ limit)
    (hheld : (ThrottlerGuard.new defaultLimit defaultWindow).HeldTo key limit window events) :
    ThrottlerBound (.new defaultLimit defaultWindow) key limit window events where
  inWindow pre e post hevents hopens := by
    subst hevents
    have hsuffix : Timeline (e :: post) := (List.pairwise_append.1 htimes).2.1
    exact ThrottlerGuard.admittedUntil_of_opens hsuffix hlimit hheld.after hopens
  inInterval a := by
    have hnew : Within limit ((ThrottlerGuard.new defaultLimit defaultWindow).store key) := nofun
    exact admitted_within (ThrottlerGuard.course_of_heldTo hheld)
      (ThrottlerGuard.ordered_course htimes) hlimit hnew
  unnoticed := ThrottlerGuard.decisions_filter _ htimes

/-- A request from an address, held to two requests a second. -/
def pair (address : String) : Context :=
  ⟨some ⟨2, 1, none⟩, ⟨.absent, some address, none⟩⟩

/-- Three requests at once, a cleanup, and two more in the next window. -/
theorem throttler_bound_pair :
    ThrottlerBound (.new 100 60) "rl:ip:::1" 2 1000
      [.request (pair "::1") 0, .request (pair "::1") 0, .request (pair "::1") 1000,
        .cleanup 1001, .request (pair "::1") 1001, .request (pair "::2") 1500] := by
  refine throttler_bound 100 60 ?_ (by decide) fun c now hmem _ => ?_
  · show List.Pairwise _ _
    decide +kernel
  · simp only [List.mem_cons, Event.request.injEq, List.not_mem_nil, or_false, false_or,
      reduceCtorEq] at hmem
    have hcustom : c.customLimit = some ⟨2, 1, none⟩ := by
      rcases hmem with ⟨rfl, -⟩ | ⟨rfl, -⟩ | ⟨rfl, -⟩ | ⟨rfl, -⟩ | ⟨rfl, -⟩ <;> rfl
    unfold ThrottlerGuard.limits Limits.windowMs
    rw [hcustom]
    exact ⟨rfl, by norm_num⟩

end EnterpriseSystem.RateLimiting
