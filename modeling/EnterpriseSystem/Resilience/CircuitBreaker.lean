import EnterpriseSystem.Base.Calendar
import EnterpriseSystem.Base.Reactive

/-!
# The circuit breaker

`CircuitBreaker` of `src/common/utils/async.util.ts`.

* `CircuitBreaker` — the breaker with its counters; `state`, `execute`,
  `onSuccess`, `onFailure`, `reset` — its methods.  `execute` falls into
  `enter`, which runs up to the call of the wrapped function, and `settle`,
  which runs once that call is over.
* `Automaton` — the states and transitions of the comment on the class, with
  runs of consecutive failures and successes in place of the counters.
* `Matches` — the simulation: which counters mean something in which state.
* `refines_iff` — the breaker shows what the automaton does, exactly as long as
  the retry time of every refused call is a date.
-/

namespace EnterpriseSystem.Resilience

open Reactive Calendar

/-! ## The breaker -/

/-- `CircuitState`. -/
inductive CircuitState where
  | closed
  | opened
  | halfOpen
  deriving DecidableEq

/-- `CircuitBreakerOptions`, without the two callbacks. -/
structure CircuitBreakerOptions where
  failureThreshold : ℚ
  resetTimeoutMs : Millis
  successThreshold : ℚ
  deriving DecidableEq

/-- `DEFAULT_CIRCUIT_OPTIONS`. -/
def defaultCircuitOptions : CircuitBreakerOptions :=
  { failureThreshold := 5, resetTimeoutMs := 30000, successThreshold := 3 }

/-- `CircuitBreaker`; `storedState` is its `_state`. -/
structure CircuitBreaker where
  opts : CircuitBreakerOptions
  storedState : CircuitState
  failureCount : ℕ
  successCount : ℕ
  lastFailureTime : Millis
  nextAttemptTime : Millis
  deriving DecidableEq

/-- What a call of `execute` rejects with. -/
inductive Failure (E : Type) where
  /-- What the wrapped function has rejected with. -/
  | rejected (e : E)
  /-- `CircuitOpenError`. -/
  | circuitOpenError (message : String) (retryAt : Millis)
  /-- `RangeError`. -/
  | rangeError (message : String)
  deriving DecidableEq

namespace CircuitBreaker

/-- A new breaker. -/
def new (opts : CircuitBreakerOptions) : CircuitBreaker :=
  { opts := opts, storedState := .closed, failureCount := 0, successCount := 0,
    lastFailureTime := 0, nextAttemptTime := 0 }

/-- `transitionTo`. -/
def transitionTo (b : CircuitBreaker) (newState : CircuitState) : CircuitBreaker :=
  { b with storedState := newState }

/-- The getter `state`: an open breaker becomes half-open once it is read after
the timeout. -/
def state (b : CircuitBreaker) (now : Millis) : CircuitState × CircuitBreaker :=
  if b.storedState = .opened ∧ b.nextAttemptTime ≤ now then
    (.halfOpen, b.transitionTo .halfOpen)
  else (b.storedState, b)

/-- `onSuccess`. -/
def onSuccess (b : CircuitBreaker) : CircuitBreaker :=
  if b.storedState = .halfOpen then
    let b := { b with successCount := b.successCount + 1 }
    if b.opts.successThreshold ≤ b.successCount then
      { b.transitionTo .closed with failureCount := 0, successCount := 0 }
    else b
  else { b with failureCount := 0 }

/-- `onFailure`. -/
def onFailure (b : CircuitBreaker) (now : Millis) : CircuitBreaker :=
  let b := { b with failureCount := b.failureCount + 1, lastFailureTime := now }
  if b.storedState = .halfOpen then
    { b.transitionTo .opened with
      nextAttemptTime := now + b.opts.resetTimeoutMs, successCount := 0 }
  else if b.opts.failureThreshold ≤ b.failureCount then
    { b.transitionTo .opened with nextAttemptTime := now + b.opts.resetTimeoutMs }
  else b

/-- `reset`. -/
def reset (b : CircuitBreaker) : CircuitBreaker :=
  { b with
    storedState := .closed, failureCount := 0, successCount := 0, lastFailureTime := 0,
    nextAttemptTime := 0 }

/-- `execute` up to the call of the wrapped function. -/
def enter {E : Type} (b : CircuitBreaker) (now : Millis) :
    Except (Failure E) Unit × CircuitBreaker :=
  let (currentState, b) := b.state now
  if currentState = .opened then
    match toISOString b.nextAttemptTime with
    | some iso =>
      (.error (.circuitOpenError s!"Circuit breaker is open. Retry after {iso}" b.nextAttemptTime),
        b)
    | none => (.error (.rangeError "Invalid time value"), b)
  else (.ok (), b)

/-- `execute` once the wrapped function has resolved or rejected. -/
def settle {E T : Type} (b : CircuitBreaker) (outcome : Except E T) (now : Millis) :
    CircuitBreaker :=
  match outcome with
  | .ok _ => b.onSuccess
  | .error _ => b.onFailure now

/-- `execute`, with nothing else going on until it is over. -/
def execute {E T : Type} (b : CircuitBreaker) (outcome : Except E T) (started ended : Millis) :
    Except (Failure E) T × CircuitBreaker :=
  match b.enter started with
  | (.error e, b) => (.error e, b)
  | (.ok (), b) => (outcome.mapError .rejected, b.settle outcome ended)

end CircuitBreaker

/-! ## From outside -/

/-- What is done to a breaker. -/
inductive BreakerEvent (E T : Type) where
  /-- A call whose wrapped function would settle with `outcome`. -/
  | execute (outcome : Except E T) (started ended : Millis)
  | reset
  | readState (now : Millis)

/-- The times at which the clock is read. -/
def BreakerEvent.times {E T : Type} : BreakerEvent E T → List Millis
  | execute _ started ended => [started, ended]
  | reset => []
  | readState now => [now]

/-- What is seen of it. -/
inductive Observation (E T : Type) where
  /-- The wrapped function ran. -/
  | settled (outcome : Except E T)
  | circuitOpenError (retryAt : Millis)
  | rangeError
  | state (s : CircuitState)
  | done
  deriving DecidableEq

/-- What is seen of a call. -/
def seen {E T : Type} : Except (Failure E) T → Observation E T
  | .ok a => .settled (.ok a)
  | .error (.rejected e) => .settled (.error e)
  | .error (.circuitOpenError _ retryAt) => .circuitOpenError retryAt
  | .error (.rangeError _) => .rangeError

/-- The breaker as a machine. -/
def CircuitBreaker.machine (E T : Type) :
    Machine CircuitBreaker (BreakerEvent E T) (Observation E T)
  | b, .execute outcome started ended =>
    (seen (b.execute outcome started ended).1, (b.execute outcome started ended).2)
  | b, .reset => (.done, b.reset)
  | b, .readState now => (.state (b.state now).1, (b.state now).2)

/-! ## The documented automaton -/

/-- The states, with how far the current run has come. -/
inductive Automaton where
  /-- After so many consecutive failures. -/
  | closed (failures : ℕ)
  /-- Opened at that time. -/
  | opened (since : Millis)
  /-- After so many consecutive successes. -/
  | halfOpen (successes : ℕ)
  deriving DecidableEq

namespace Automaton

variable (opts : CircuitBreakerOptions)

/-- *open → half-open*: after `resetTimeoutMs`. -/
def elapse (now : Millis) : Automaton → Automaton
  | opened since => if since + opts.resetTimeoutMs ≤ now then halfOpen 0 else opened since
  | a => a

/-- *half-open → closed*: after `successThreshold` consecutive successes. -/
def succeed : Automaton → Automaton
  | closed _ => closed 0
  | opened since => opened since
  | halfOpen n => if opts.successThreshold ≤ (n + 1 : ℕ) then closed 0 else halfOpen (n + 1)

/-- *closed → open*: after `failureThreshold` consecutive failures;
*half-open → open*: on any failure. -/
def fail (now : Millis) : Automaton → Automaton
  | closed n => if opts.failureThreshold ≤ (n + 1 : ℕ) then opened now else closed (n + 1)
  | opened since => opened since
  | halfOpen _ => opened now

/-- The state reported. -/
def report : Automaton → CircuitState
  | closed _ => .closed
  | opened _ => .opened
  | halfOpen _ => .halfOpen

/-- A call: refused in the open state, run in the others. -/
def call {E T : Type} (a : Automaton) (outcome : Except E T) (started ended : Millis) :
    Observation E T × Automaton :=
  match a.elapse opts started, outcome with
  | opened since, _ => (.circuitOpenError (since + opts.resetTimeoutMs), opened since)
  | a, .ok x => (.settled (.ok x), a.succeed opts)
  | a, .error e => (.settled (.error e), a.fail opts ended)

/-- The automaton as a machine. -/
def machine (E T : Type) : Machine Automaton (BreakerEvent E T) (Observation E T)
  | a, .execute outcome started ended => a.call opts outcome started ended
  | _, .reset => (.done, closed 0)
  | a, .readState now => (.state (a.elapse opts now).report, a.elapse opts now)

end Automaton

/-! ## The simulation -/

/-- The breaker is in the state of the automaton.  Its failures mean something
only while it is closed, its successes only while it is half-open. -/
def Matches (opts : CircuitBreakerOptions) (b : CircuitBreaker) : Automaton → Prop
  | .closed n => b.opts = opts ∧ b.storedState = .closed ∧ b.failureCount = n ∧ b.successCount = 0
  | .opened since =>
    b.opts = opts ∧ b.storedState = .opened ∧ b.nextAttemptTime = since + opts.resetTimeoutMs ∧
      b.successCount = 0
  | .halfOpen n => b.opts = opts ∧ b.storedState = .halfOpen ∧ b.successCount = n

section

variable {E T : Type} {opts : CircuitBreakerOptions} {b : CircuitBreaker} {a : Automaton}

theorem Matches.new (opts : CircuitBreakerOptions) : Matches opts (.new opts) (.closed 0) :=
  ⟨rfl, rfl, rfl, rfl⟩

theorem Matches.report (h : Matches opts b a) : b.storedState = a.report := by
  cases a with
  | closed n => exact h.2.1
  | opened since => exact h.2.1
  | halfOpen n => exact h.2.1

/-- Reading the state. -/
theorem Matches.state (h : Matches opts b a) (now : Millis) :
    (b.state now).1 = (a.elapse opts now).report ∧
      Matches opts (b.state now).2 (a.elapse opts now) := by
  unfold CircuitBreaker.state
  cases a with
  | closed n =>
    obtain ⟨hopts, hstate, hfailures, hsuccesses⟩ := h
    rw [if_neg (by rw [hstate]; exact nofun)]
    exact ⟨hstate, hopts, hstate, hfailures, hsuccesses⟩
  | opened since =>
    obtain ⟨hopts, hstate, hnext, hsuccesses⟩ := h
    simp only [Automaton.elapse, hstate, hnext, true_and]
    split_ifs
    · exact ⟨rfl, hopts, rfl, hsuccesses⟩
    · exact ⟨rfl, hopts, hstate, hnext, hsuccesses⟩
  | halfOpen n =>
    obtain ⟨hopts, hstate, hsuccesses⟩ := h
    rw [if_neg (by rw [hstate]; exact nofun)]
    exact ⟨hstate, hopts, hstate, hsuccesses⟩

/-- A call that was let through has succeeded. -/
theorem Matches.onSuccess (h : Matches opts b a) (hrun : a.report ≠ .opened) :
    Matches opts b.onSuccess (a.succeed opts) := by
  unfold CircuitBreaker.onSuccess
  cases a with
  | closed n =>
    obtain ⟨hopts, hstate, -, hsuccesses⟩ := h
    rw [if_neg (by rw [hstate]; exact nofun)]
    exact ⟨hopts, hstate, rfl, hsuccesses⟩
  | opened since => exact absurd rfl hrun
  | halfOpen n =>
    obtain ⟨rfl, hstate, rfl⟩ := h
    rw [if_pos hstate]
    simp only [Automaton.succeed]
    split_ifs
    · exact ⟨rfl, rfl, rfl, rfl⟩
    · exact ⟨rfl, hstate, rfl⟩

/-- A call that was let through has failed. -/
theorem Matches.onFailure (h : Matches opts b a) (hrun : a.report ≠ .opened) (now : Millis) :
    Matches opts (b.onFailure now) (a.fail opts now) := by
  unfold CircuitBreaker.onFailure
  cases a with
  | closed n =>
    obtain ⟨rfl, hstate, rfl, hsuccesses⟩ := h
    simp only [Automaton.fail, hstate, reduceCtorEq, if_false]
    split_ifs
    · exact ⟨rfl, rfl, rfl, hsuccesses⟩
    · exact ⟨rfl, rfl, rfl, hsuccesses⟩
  | opened since => exact absurd rfl hrun
  | halfOpen n =>
    obtain ⟨rfl, hstate, rfl⟩ := h
    simp only [Automaton.fail, hstate, if_true]
    exact ⟨rfl, rfl, rfl, rfl⟩

/-- What the breaker shows of what the automaton answers: a retry time that is
no date cannot be put into the message. -/
def shown : Observation E T → Observation E T
  | .circuitOpenError retryAt =>
    if maxDate < |retryAt| then .rangeError else .circuitOpenError retryAt
  | o => o

/-- A call. -/
theorem Matches.execute (h : Matches opts b a) (outcome : Except E T) (started ended : Millis) :
    seen (b.execute outcome started ended).1 = shown (a.call opts outcome started ended).1 ∧
      Matches opts (b.execute outcome started ended).2 (a.call opts outcome started ended).2 := by
  obtain ⟨hreport, hnext⟩ := h.state started
  unfold CircuitBreaker.execute CircuitBreaker.enter Automaton.call
  generalize b.state started = read at hreport hnext
  obtain ⟨currentState, b'⟩ := read
  dsimp only at hreport hnext ⊢
  cases ha : a.elapse opts started with
  | opened since =>
    rw [ha] at hreport hnext
    obtain rfl : currentState = .opened := hreport
    rw [if_pos rfl]
    have hretry := hnext.2.2.1
    cases hiso : toISOString b'.nextAttemptTime with
    | some iso =>
      have hdate : ¬ maxDate < |since + opts.resetTimeoutMs| := by
        rw [← hretry, ← toISOString_eq_none, hiso]
        exact nofun
      refine ⟨?_, hnext⟩
      show Observation.circuitOpenError b'.nextAttemptTime = _
      simp only [shown, hretry, if_neg hdate]
    | none =>
      have hdate : maxDate < |since + opts.resetTimeoutMs| := by
        rw [← hretry, ← toISOString_eq_none, hiso]
      refine ⟨?_, hnext⟩
      show Observation.rangeError = _
      simp only [shown, if_pos hdate]
  | closed n =>
    rw [ha] at hreport hnext
    obtain rfl : currentState = .closed := hreport
    rw [if_neg nofun]
    cases outcome with
    | ok x => exact ⟨rfl, hnext.onSuccess nofun⟩
    | error e => exact ⟨rfl, hnext.onFailure nofun ended⟩
  | halfOpen n =>
    rw [ha] at hreport hnext
    obtain rfl : currentState = .halfOpen := hreport
    rw [if_neg nofun]
    cases outcome with
    | ok x => exact ⟨rfl, hnext.onSuccess nofun⟩
    | error e => exact ⟨rfl, hnext.onFailure nofun ended⟩

/-- **The breaker simulates the automaton.** -/
theorem simulates (opts : CircuitBreakerOptions) :
    Machine.Simulates (CircuitBreaker.machine E T) (Automaton.machine opts E T) (Matches opts)
      fun o o' => o = shown o' := by
  intro b a event h
  cases event with
  | execute outcome started ended => exact h.execute outcome started ended
  | reset =>
    have hopts : b.opts = opts := by
      cases a with
      | closed n => exact h.1
      | opened since => exact h.1
      | halfOpen n => exact h.1
    exact ⟨rfl, hopts, rfl, rfl, rfl⟩
  | readState now =>
    obtain ⟨hreport, hnext⟩ := h.state now
    exact ⟨congrArg Observation.state hreport, hnext⟩

/-- What a breaker shows over a sequence of events. -/
theorem observe_eq (opts : CircuitBreakerOptions) (events : List (BreakerEvent E T)) :
    (CircuitBreaker.machine E T).observe (.new opts) events =
      ((Automaton.machine opts E T).observe (.closed 0) events).map shown :=
  Machine.observe_map_eq_of_simulates (simulates opts) (Matches.new opts) events

/-- Every call the automaton refuses is refused until a time that is a date. -/
def RetryDates (opts : CircuitBreakerOptions) (events : List (BreakerEvent E T)) : Prop :=
  ∀ retryAt, .circuitOpenError retryAt ∈ (Automaton.machine opts E T).observe (.closed 0) events →
    |retryAt| ≤ maxDate

/-- **The breaker refines its automaton** over a sequence of calls, resets and
reads, exactly when every call is refused until a time that is a date. -/
theorem refines_iff (opts : CircuitBreakerOptions) (events : List (BreakerEvent E T)) :
    (CircuitBreaker.machine E T).observe (.new opts) events =
        (Automaton.machine opts E T).observe (.closed 0) events ↔
      RetryDates opts events := by
  rw [observe_eq]
  unfold RetryDates
  generalize (Automaton.machine opts E T).observe (.closed 0) events = answers
  have hself : answers.map shown = answers ↔ ∀ o ∈ answers, shown o = o := by
    conv_lhs => rhs; rw [← List.map_id answers]
    rw [List.map_eq_map_iff]
    rfl
  rw [hself]
  constructor
  · intro hall retryAt hmem
    by_contra hdate
    have hshown := (hall _ hmem).symm.trans (if_pos (not_le.1 hdate))
    exact nomatch hshown
  · intro hdates o hmem
    cases o with
    | circuitOpenError retryAt => exact if_neg (not_lt.2 (hdates retryAt hmem))
    | _ => rfl

end

/-- A breaker that is never to try again refuses a call with another error. -/
theorem not_refines :
    ¬ ∀ (opts : CircuitBreakerOptions) (events : List (BreakerEvent Unit Unit)),
        1 ≤ opts.failureThreshold → 1 ≤ opts.successThreshold → 0 ≤ opts.resetTimeoutMs →
        (events.flatMap BreakerEvent.times).Pairwise (· ≤ ·) →
        (CircuitBreaker.machine Unit Unit).observe (.new opts) events =
          (Automaton.machine opts Unit Unit).observe (.closed 0) events := by
  intro h
  have hsame := h ⟨1, 9007199254740991, 1⟩
    [.execute (.error ()) 0 0, .execute (.ok ()) 1 1] (by decide) (by decide) (by decide)
    (by decide)
  exact absurd hsame (by decide +kernel)

end EnterpriseSystem.Resilience
