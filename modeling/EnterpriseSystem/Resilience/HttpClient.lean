import EnterpriseSystem.Base.Run
import EnterpriseSystem.Resilience.CircuitBreaker

/-!
# The HTTP client

`src/infrastructure/external-services/http-client.service.ts`: named clients,
each with a circuit of its own, and requests that are retried.

* `HttpClientService` — the clients and their circuits; `checkCircuit`,
  `recordSuccess`, `recordFailure`, `getClient` — its methods.
* `Requests` — any number of calls of `request` at their awaits, each one in a
  response or in the sleep before the next attempt.
* `SendsNothingOpen`, `RetriesNothingOpen` — no request, and no retry, is sent
  while the circuit is open.
* `sendsNothingOpen_iff` — the first attempts never are, so the one holds along
  a run exactly when the other does; `sendsNothingOpen_of_single` — without
  retries it always does.
-/

namespace EnterpriseSystem.Resilience

open Relational Calendar

/-! ## Circuits -/

/-- `CircuitBreakerOptions` of the client. -/
structure CircuitOptions where
  failureThreshold : ℚ
  resetTimeoutMs : Millis
  halfOpenMaxAttempts : ℚ
  monitoringWindowMs : Millis

/-- `Partial<CircuitBreakerOptions>`. -/
structure CircuitOverrides where
  failureThreshold : Option ℚ := none
  resetTimeoutMs : Option Millis := none
  halfOpenMaxAttempts : Option ℚ := none
  monitoringWindowMs : Option Millis := none

/-- `defaultCircuitOptions`. -/
def httpCircuitOptions : CircuitOptions :=
  { failureThreshold := 5, resetTimeoutMs := 30000, halfOpenMaxAttempts := 3,
    monitoringWindowMs := 60000 }

/-- `{ ...options, ...overrides }`. -/
def CircuitOptions.override (options : CircuitOptions) (overrides : CircuitOverrides) :
    CircuitOptions :=
  { failureThreshold := overrides.failureThreshold.getD options.failureThreshold
    resetTimeoutMs := overrides.resetTimeoutMs.getD options.resetTimeoutMs
    halfOpenMaxAttempts := overrides.halfOpenMaxAttempts.getD options.halfOpenMaxAttempts
    monitoringWindowMs := overrides.monitoringWindowMs.getD options.monitoringWindowMs }

/-- `CircuitBreakerState`. -/
structure Circuit where
  state : CircuitState
  failures : ℕ
  lastFailureTime : Millis
  halfOpenAttempts : ℕ
  successes : ℕ

/-! ## Errors -/

/-- What the code reads of an `AxiosError`. -/
structure AxiosError where
  status : Option ℕ
  code : Option String
  message : String
  deriving DecidableEq

/-- `RETRYABLE_STATUS_CODES`. -/
def RETRYABLE_STATUS_CODES : List ℕ := [408, 429, 500, 502, 503, 504]

/-- `RETRYABLE_ERROR_CODES`. -/
def RETRYABLE_ERROR_CODES : List String :=
  ["ECONNABORTED", "ECONNREFUSED", "ECONNRESET", "ETIMEDOUT", "ENOTFOUND", "ENETUNREACH"]

/-- `isRetryableError`. -/
def isRetryableError (error : AxiosError) : Bool :=
  error.status.any RETRYABLE_STATUS_CODES.contains ||
    error.code.any RETRYABLE_ERROR_CODES.contains ||
    decide ("timeout".toList <:+: error.message.toLower.toList)

/-- What `request` rejects with. -/
inductive HttpError where
  /-- The circuit is open. -/
  | circuitOpen (message : String)
  /-- The error of the last attempt, if there has been one. -/
  | lastError (error : Option AxiosError)
  deriving DecidableEq

/-! ## The service -/

/-- `HttpClientService`: of a client, the overrides of its circuit. -/
structure HttpClientService where
  clients : String → Option CircuitOverrides
  circuits : String → Option Circuit

namespace HttpClientService

/-- A service without clients. -/
def new : HttpClientService := { clients := fun _ => none, circuits := fun _ => none }

/-- `this.circuits.set(name, circuit)`. -/
def setCircuit (s : HttpClientService) (name : String) (circuit : Circuit) : HttpClientService :=
  { s with circuits := Function.update s.circuits name (some circuit) }

/-- `initCircuit`. -/
def initCircuit (s : HttpClientService) (name : String) : HttpClientService :=
  s.setCircuit name
    { state := .closed, failures := 0, lastFailureTime := 0, halfOpenAttempts := 0, successes := 0 }

/-- `getClient`: the options count when the client is created. -/
def getClient (s : HttpClientService) (name : String) (overrides : CircuitOverrides) :
    HttpClientService :=
  match s.clients name with
  | some _ => s
  | none =>
    ({ s with clients := Function.update s.clients name (some overrides) }).initCircuit name

/-- `checkCircuit`. -/
def checkCircuit (s : HttpClientService) (name : String) (now : Millis) :
    Except HttpError HttpClientService :=
  match s.circuits name with
  | none => .ok s
  | some circuit =>
    match circuit.state with
    | .closed => .ok s
    | .opened =>
      let elapsed := now - circuit.lastFailureTime
      if httpCircuitOptions.resetTimeoutMs ≤ elapsed then
        .ok (s.setCircuit name
          { circuit with state := .halfOpen, halfOpenAttempts := 0, successes := 0 })
      else
        let seconds := ⌈(httpCircuitOptions.resetTimeoutMs - elapsed) / 1000⌉
        .error (.circuitOpen
          s!"[{name}] Circuit breaker is OPEN. Service is unavailable. Retry after {seconds}s")
    | .halfOpen => .ok s

/-- What a success makes of a circuit. -/
def succeeded (circuit : Circuit) (now : Millis) : Circuit :=
  let circuit :=
    if circuit.state = .halfOpen then
      let circuit := { circuit with successes := circuit.successes + 1 }
      if httpCircuitOptions.halfOpenMaxAttempts ≤ circuit.successes then
        { circuit with state := .closed, failures := 0 }
      else circuit
    else circuit
  if circuit.state = .closed then
    let elapsed := now - circuit.lastFailureTime
    if elapsed < httpCircuitOptions.monitoringWindowMs then
      { circuit with failures := circuit.failures - 1 }
    else circuit
  else circuit

/-- What a failure makes of a circuit. -/
def failed (circuit : Circuit) (overrides : CircuitOverrides) (now : Millis) : Circuit :=
  let options := httpCircuitOptions.override overrides
  let circuit := { circuit with failures := circuit.failures + 1, lastFailureTime := now }
  if circuit.state = .halfOpen then { circuit with state := .opened }
  else if circuit.state = .closed ∧ options.failureThreshold ≤ circuit.failures then
    { circuit with state := .opened }
  else circuit

/-- `recordSuccess`. -/
def recordSuccess (s : HttpClientService) (name : String) (now : Millis) : HttpClientService :=
  match s.circuits name with
  | none => s
  | some circuit => s.setCircuit name (succeeded circuit now)

/-- `recordFailure`. -/
def recordFailure (s : HttpClientService) (name : String) (overrides : CircuitOverrides)
    (now : Millis) : HttpClientService :=
  match s.circuits name with
  | none => s
  | some circuit => s.setCircuit name (failed circuit overrides now)

/-- The circuit is open, and the timeout has not passed since the last failure
recorded. -/
def OpenAt (s : HttpClientService) (name : String) (now : Millis) : Prop :=
  ∃ circuit, s.circuits name = some circuit ∧ circuit.state = .opened ∧
    now - circuit.lastFailureTime < httpCircuitOptions.resetTimeoutMs

end HttpClientService

/-- `calculateBackoff`, for the number `Math.random()` draws. -/
def calculateBackoff (attempt : ℕ) (baseDelay : Millis) (random : ℚ) : Millis :=
  let exponential := 2 ^ (attempt - 1) * baseDelay
  let jitter := random * baseDelay * (1 / 2)
  min (exponential + jitter) 30000

/-! ## Requests -/

/-- The arguments of a `request` that matter: the client and the retries. -/
structure HttpRequest where
  clientName : String
  maxRetries : ℕ
  retryDelay : Millis

/-- Where a request is. -/
inductive RequestPhase where
  | notStarted
  /-- Its attempt of that number has been sent. -/
  | awaiting (attempt : ℕ)
  /-- It sleeps until then, before the attempt after that one. -/
  | sleeping (attempt : ℕ) (wakeAt : Millis)
  | finished (result : Except HttpError Unit)

/-- The service with the requests in progress. -/
structure Requests (ι : Type) where
  service : HttpClientService
  phase : ι → RequestPhase
  clock : Millis

/-- What happens. -/
inductive RequestLabel (ι : Type) where
  /-- Somebody gets a client, with these options. -/
  | getClient (name : String) (overrides : CircuitOverrides)
  | start (i : ι) (now : Millis)
  /-- The response to an attempt arrives; the number is for the delay after it. -/
  | respond (i : ι) (response : Except AxiosError Unit) (now : Millis) (random : ℚ)
  /-- A sleep is over. -/
  | wake (i : ι) (now : Millis)

namespace Requests

variable {ι : Type} [DecidableEq ι] (calls : ι → HttpRequest)

/-- Before any request. -/
def new (ι : Type) (now : Millis) : Requests ι :=
  { service := .new, phase := fun _ => .notStarted, clock := now }

/-- `request` up to its first attempt. -/
def start (σ : Requests ι) (i : ι) (now : Millis) : Requests ι :=
  match σ.service.checkCircuit (calls i).clientName now with
  | .error e => { σ with phase := Function.update σ.phase i (.finished (.error e)), clock := now }
  | .ok service =>
    { service := service.getClient (calls i).clientName {}
      phase := Function.update σ.phase i
        (if 1 ≤ (calls i).maxRetries then .awaiting 1 else .finished (.error (.lastError none)))
      clock := now }

/-- The interceptors of the client, and then `request` up to its next attempt. -/
def respond (σ : Requests ι) (i : ι) (attempt : ℕ) (response : Except AxiosError Unit)
    (now : Millis) (random : ℚ) : Requests ι :=
  let name := (calls i).clientName
  match response with
  | .ok () =>
    { service := σ.service.recordSuccess name now
      phase := Function.update σ.phase i (.finished (.ok ()))
      clock := now }
  | .error error =>
    if isRetryableError error then
      { service := σ.service.recordFailure name ((σ.service.clients name).getD {}) now
        phase := Function.update σ.phase i
          (if attempt < (calls i).maxRetries then
            .sleeping attempt (now + calculateBackoff attempt (calls i).retryDelay random)
          else .finished (.error (.lastError (some error))))
        clock := now }
    else
      { σ with
        phase := Function.update σ.phase i (.finished (.error (.lastError (some error)))),
        clock := now }

/-- The attempt after a sleep. -/
def wake (σ : Requests ι) (i : ι) (attempt : ℕ) (now : Millis) : Requests ι :=
  { σ with phase := Function.update σ.phase i (.awaiting (attempt + 1)), clock := now }

end Requests

section

variable {ι : Type} [DecidableEq ι] {calls : ι → HttpRequest}

/-- One step; time does not run back. -/
inductive RequestStep (calls : ι → HttpRequest) :
    Requests ι → RequestLabel ι → Requests ι → Prop where
  | getClient {σ : Requests ι} {name : String} {overrides : CircuitOverrides} :
      RequestStep calls σ (.getClient name overrides)
        { σ with service := σ.service.getClient name overrides }
  | start {σ : Requests ι} {i : ι} {now : Millis} : σ.clock ≤ now → σ.phase i = .notStarted →
      RequestStep calls σ (.start i now) (σ.start calls i now)
  | respond {σ : Requests ι} {i : ι} {attempt : ℕ} {response : Except AxiosError Unit}
      {now : Millis} {random : ℚ} : σ.clock ≤ now → 0 ≤ random → random < 1 →
      σ.phase i = .awaiting attempt →
      RequestStep calls σ (.respond i response now random)
        (σ.respond calls i attempt response now random)
  | wake {σ : Requests ι} {i : ι} {attempt : ℕ} {wakeAt now : Millis} : σ.clock ≤ now →
      wakeAt ≤ now → σ.phase i = .sleeping attempt wakeAt →
      RequestStep calls σ (.wake i now) (σ.wake i attempt now)

/-- An attempt of `i` is sent in this step. -/
def Sends (i : ι) (p : Requests ι × RequestLabel ι × Requests ι) : Prop :=
  (∀ attempt, p.1.phase i ≠ .awaiting attempt) ∧ ∃ attempt, p.2.2.phase i = .awaiting attempt

/-- Nothing is sent in this step on a client whose circuit is open. -/
def SendsNothingOpen (calls : ι → HttpRequest) (p : Requests ι × RequestLabel ι × Requests ι) :
    Prop :=
  ∀ i, Sends i p → ¬ p.2.2.service.OpenAt (calls i).clientName p.2.2.clock

/-- No retry falls due while the circuit is open. -/
def RetriesNothingOpen (calls : ι → HttpRequest) (σ : Requests ι) : RequestLabel ι → Prop
  | .wake i now => ¬ σ.service.OpenAt (calls i).clientName now
  | _ => True

end

/-! ## First attempts -/

namespace HttpClientService

variable {s s' : HttpClientService} {name : String} {now : Millis}

theorem setCircuit_self (s : HttpClientService) (name : String) (circuit : Circuit) :
    (s.setCircuit name circuit).circuits name = some circuit := Function.update_self ..

/-- A circuit that was checked is not open. -/
theorem not_openAt_of_checkCircuit (h : s.checkCircuit name now = .ok s') :
    ¬ s'.OpenAt name now := by
  rintro ⟨circuit, hcircuit, hstate, hrecent⟩
  unfold checkCircuit at h
  cases hbefore : s.circuits name with
  | none =>
    rw [hbefore] at h
    obtain rfl : s = s' := Except.ok.inj h
    exact nomatch hbefore.symm.trans hcircuit
  | some before =>
    rw [hbefore] at h
    dsimp only at h
    cases hstate' : before.state with
    | closed =>
      rw [hstate'] at h
      obtain rfl : s = s' := Except.ok.inj h
      obtain rfl : before = circuit := Option.some.inj (hbefore.symm.trans hcircuit)
      exact nomatch hstate'.symm.trans hstate
    | halfOpen =>
      rw [hstate'] at h
      obtain rfl : s = s' := Except.ok.inj h
      obtain rfl : before = circuit := Option.some.inj (hbefore.symm.trans hcircuit)
      exact nomatch hstate'.symm.trans hstate
    | opened =>
      rw [hstate'] at h
      dsimp only at h
      split_ifs at h with helapsed
      obtain rfl := Except.ok.inj h
      rw [setCircuit_self] at hcircuit
      obtain rfl := Option.some.inj hcircuit
      exact nomatch hstate

/-- A client that is created has a closed circuit. -/
theorem not_openAt_getClient (h : ¬ s.OpenAt name now) (overrides : CircuitOverrides) :
    ¬ (s.getClient name overrides).OpenAt name now := by
  unfold getClient
  cases s.clients name with
  | some _ => exact h
  | none =>
    rintro ⟨circuit, hcircuit, hstate, -⟩
    unfold initCircuit at hcircuit
    rw [setCircuit_self] at hcircuit
    obtain rfl := Option.some.inj hcircuit
    exact nomatch hstate

end HttpClientService

section

variable {ι : Type} [DecidableEq ι] {calls : ι → HttpRequest} {σ σ' : Requests ι}
  {l : RequestLabel ι}

omit [DecidableEq ι] in
/-- Only the request that moves sends anything. -/
theorem not_sends_of_phase {i : ι} (h : σ'.phase i = σ.phase i) : ¬ Sends i (σ, l, σ') := by
  rintro ⟨hbefore, attempt, hafter⟩
  exact hbefore attempt (h.symm.trans hafter)

/-- A first attempt is sent on a circuit that was checked. -/
theorem not_openAt_start {i j : ι} {now : Millis}
    (hsends : Sends j (σ, .start i now, σ.start calls i now)) :
    ¬ (σ.start calls i now).service.OpenAt (calls j).clientName (σ.start calls i now).clock := by
  by_cases hj : j = i
  · subst hj
    obtain ⟨-, attempt, hafter⟩ := hsends
    unfold Requests.start at hafter ⊢
    cases hcheck : σ.service.checkCircuit (calls j).clientName now with
    | error e =>
      rw [hcheck] at hafter
      simp at hafter
    | ok service =>
      exact HttpClientService.not_openAt_getClient
        (HttpClientService.not_openAt_of_checkCircuit hcheck) {}
  · refine absurd hsends (not_sends_of_phase ?_)
    unfold Requests.start
    cases σ.service.checkCircuit (calls i).clientName now with
    | error e => exact Function.update_of_ne hj ..
    | ok service => exact Function.update_of_ne hj ..

/-- A response sends nothing by itself. -/
theorem not_sends_respond {i j : ι} {attempt : ℕ} {response : Except AxiosError Unit}
    {now : Millis} {random : ℚ} (hphase : σ.phase i = .awaiting attempt) :
    ¬ Sends j (σ, l, σ.respond calls i attempt response now random) := by
  by_cases hj : j = i
  · subst hj
    exact fun hsends => hsends.1 attempt hphase
  · refine not_sends_of_phase ?_
    unfold Requests.respond
    cases response with
    | ok _ => exact Function.update_of_ne hj ..
    | error error =>
      dsimp only
      split_ifs <;> exact Function.update_of_ne hj ..

/-- **One step** sends nothing on an open circuit exactly when it is no retry
that does. -/
theorem sendsNothingOpen_step (hs : RequestStep calls σ l σ') :
    SendsNothingOpen calls (σ, l, σ') ↔ RetriesNothingOpen calls σ l := by
  cases hs with
  | getClient => exact iff_of_true (fun i hsends => absurd hsends (not_sends_of_phase rfl)) trivial
  | start _ _ => exact iff_of_true (fun j hsends => not_openAt_start hsends) trivial
  | respond _ _ _ hphase =>
    exact iff_of_true (fun j hsends => absurd hsends (not_sends_respond hphase)) trivial
  | @wake i attempt wakeAt now _ _ hphase =>
    constructor
    · intro hnothing
      refine hnothing i ⟨fun k hk => ?_, attempt + 1, Function.update_self ..⟩
      exact nomatch hphase.symm.trans hk
    · intro hretry j hsends
      by_cases hj : j = i
      · subst hj
        exact hretry
      · exact absurd hsends (not_sends_of_phase (Function.update_of_ne hj ..))

/-- **An open circuit sends nothing** along a run exactly when no retry falls due
while its circuit is open. -/
theorem sendsNothingOpen_iff {steps : List (Requests ι × RequestLabel ι × Requests ι)}
    {now : Millis} (hrun : Run (RequestStep calls) Always (.new ι now) steps σ) :
    (∀ p ∈ steps, SendsNothingOpen calls p) ↔
      ∀ p ∈ steps, RetriesNothingOpen calls p.1 p.2.1 := by
  exact forall₂_congr fun p hp => sendsNothingOpen_step (hrun.step_of_mem hp)

/-- Where a request that is not retried can be. -/
def Single (calls : ι → HttpRequest) (σ : Requests ι) : Prop :=
  ∀ i, (∀ attempt, σ.phase i = .awaiting attempt → 1 ≤ attempt) ∧
    ∀ attempt wakeAt, σ.phase i = .sleeping attempt wakeAt →
      1 ≤ attempt ∧ attempt < (calls i).maxRetries

omit [DecidableEq ι] in
/-- The requests that have not moved are where they were. -/
theorem Single.of_others {i : ι} (h : Single calls σ) (hothers : ∀ j, j ≠ i → σ'.phase j = σ.phase j)
    (hawaiting : ∀ attempt, σ'.phase i = .awaiting attempt → 1 ≤ attempt)
    (hsleeping : ∀ attempt wakeAt, σ'.phase i = .sleeping attempt wakeAt →
      1 ≤ attempt ∧ attempt < (calls i).maxRetries) : Single calls σ' := by
  intro j
  by_cases hj : j = i
  · subst hj
    exact ⟨hawaiting, hsleeping⟩
  · rw [hothers j hj]
    exact h j

theorem Single.step (h : Single calls σ) (hs : RequestStep calls σ l σ') : Single calls σ' := by
  cases hs with
  | getClient => exact h
  | @start i now _ _ =>
    unfold Requests.start
    cases σ.service.checkCircuit (calls i).clientName now with
    | error e =>
      refine h.of_others (i := i) (fun j hj => Function.update_of_ne hj ..) ?_ ?_
      · simp
      · simp
    | ok service =>
      refine h.of_others (i := i) (fun j hj => Function.update_of_ne hj ..) ?_ ?_
      · intro attempt hphase
        simp only [Function.update_self] at hphase
        split_ifs at hphase
        obtain rfl := RequestPhase.awaiting.inj hphase
        exact le_rfl
      · intro attempt wakeAt hphase
        simp only [Function.update_self] at hphase
        split_ifs at hphase
  | @respond i attempt response now random _ _ _ hphase =>
    have hle : 1 ≤ attempt := (h i).1 attempt hphase
    unfold Requests.respond
    cases response with
    | ok _ =>
      refine h.of_others (i := i) (fun j hj => Function.update_of_ne hj ..) ?_ ?_
      · simp
      · simp
    | error error =>
      dsimp only
      split_ifs with hretryable hmore
      · refine h.of_others (i := i) (fun j hj => Function.update_of_ne hj ..) ?_ ?_
        · simp
        · intro attempt' wakeAt hphase'
          simp only [Function.update_self] at hphase'
          obtain ⟨rfl, -⟩ := RequestPhase.sleeping.inj hphase'
          exact ⟨hle, hmore⟩
      · refine h.of_others (i := i) (fun j hj => Function.update_of_ne hj ..) ?_ ?_
        · simp
        · simp
      · refine h.of_others (i := i) (fun j hj => Function.update_of_ne hj ..) ?_ ?_
        · simp
        · simp
  | @wake i attempt wakeAt now _ _ _ =>
    refine h.of_others (i := i) (fun j hj => Function.update_of_ne hj ..) ?_ ?_
    · intro attempt' hphase'
      have hphase' : RequestPhase.awaiting (attempt + 1) = .awaiting attempt' :=
        (Function.update_self ..).symm.trans hphase'
      obtain rfl := RequestPhase.awaiting.inj hphase'
      omega
    · intro attempt' wakeAt' hphase'
      exact nomatch (Function.update_self ..).symm.trans hphase'

/-- **Without retries**, an open circuit sends nothing. -/
theorem sendsNothingOpen_of_single {steps : List (Requests ι × RequestLabel ι × Requests ι)}
    {now : Millis} (hsingle : ∀ i, (calls i).maxRetries ≤ 1)
    (hrun : Run (RequestStep calls) Always (.new ι now) steps σ) :
    ∀ p ∈ steps, SendsNothingOpen calls p := by
  have hnew : Single calls (.new ι now) := fun i => ⟨nofun, nofun⟩
  suffices hall : Single calls σ ∧ ∀ p ∈ steps, SendsNothingOpen calls p from hall.2
  induction hrun with
  | start => exact ⟨hnew, by simp⟩
  | @next steps σ₁ σ₂ l _ _ hs ih =>
    obtain ⟨hsingle₁, hbefore⟩ := ih
    refine ⟨hsingle₁.step hs, fun p hp => ?_⟩
    rcases List.mem_append.1 hp with hp | hp
    · exact hbefore p hp
    · obtain rfl := List.mem_singleton.1 hp
      refine (sendsNothingOpen_step hs).2 ?_
      cases hs with
      | getClient => trivial
      | start _ _ => trivial
      | respond _ _ _ _ => trivial
      | @wake i attempt wakeAt now _ _ hphase =>
        obtain ⟨hle, hlt⟩ := (hsingle₁ i).2 attempt wakeAt hphase
        have hmost := hsingle i
        omega

end

/-! ## A retry -/

/-- One request, made up to three times. -/
def thrice : Unit → HttpRequest := fun _ => { clientName := "api", maxRetries := 3, retryDelay := 1000 }

namespace Thrice

/-- The client's circuit opens on its first failure. -/
def created : Requests Unit :=
  { Requests.new Unit 0 with
    service := HttpClientService.new.getClient "api" { failureThreshold := some 1 } }

/-- The first attempt has been sent. -/
def sent : Requests Unit := created.start thrice () 0

/-- It was answered with status 503. -/
def refused : Requests Unit := sent.respond thrice () 1 (.error ⟨some 503, none, ""⟩) 0 0

/-- The second attempt has been sent. -/
def resent : Requests Unit := refused.wake () 1 1000

theorem phase_sent : sent.phase () = .awaiting 1 := rfl

theorem phase_refused : refused.phase () = .sleeping 1 1000 := by
  have hdelay : (0 : Millis) + calculateBackoff 1 1000 0 = 1000 := by
    norm_num [calculateBackoff]
  show RequestPhase.sleeping 1 (0 + calculateBackoff 1 1000 0) = _
  rw [hdelay]

/-- The history up to the retry. -/
def steps : List (Requests Unit × RequestLabel Unit × Requests Unit) :=
  [(.new Unit 0, .getClient "api" { failureThreshold := some 1 }, created),
    (created, .start () 0, sent),
    (sent, .respond () (.error ⟨some 503, none, ""⟩) 0 0, refused)]

theorem run_steps : Run (RequestStep thrice) Always (.new Unit 0) steps refused :=
  .next (.next (.next .start trivial .getClient) trivial (.start le_rfl rfl)) trivial
    (.respond le_rfl le_rfl one_pos phase_sent)

theorem run_resent : Run (RequestStep thrice) Always (.new Unit 0)
    (steps ++ [(refused, .wake () 1000, resent)]) resent :=
  .next run_steps trivial (.wake (by decide) le_rfl phase_refused)

theorem openAt_refused : refused.service.OpenAt "api" 1000 := by
  refine ⟨_, rfl, by decide +kernel, ?_⟩
  show (1000 : Millis) - (HttpClientService.failed _ _ 0).lastFailureTime < 30000
  decide +kernel

end Thrice

/-- Nothing is sent on the open circuit until the retry falls due. -/
theorem sendsNothingOpen_thrice :
    Thrice.refused.service.OpenAt "api" 1000 ∧
      ∀ p ∈ Thrice.steps, SendsNothingOpen thrice p := by
  refine ⟨Thrice.openAt_refused, (sendsNothingOpen_iff Thrice.run_steps).2 ?_⟩
  simp [Thrice.steps, RetriesNothingOpen]

/-- The retry is sent on the circuit that the first attempt has opened. -/
theorem not_sendsNothingOpen :
    ¬ ∀ (calls : Unit → HttpRequest) (now : Millis)
        (steps : List (Requests Unit × RequestLabel Unit × Requests Unit)) (σ : Requests Unit),
        Run (RequestStep calls) Always (.new Unit now) steps σ →
          ∀ p ∈ steps, SendsNothingOpen calls p := by
  intro h
  have hretry := h thrice 0 _ _ Thrice.run_resent _
    (List.mem_append_right _ (List.mem_singleton_self _))
  refine hretry () ⟨fun k hk => ?_, 2, rfl⟩ Thrice.openAt_refused
  exact nomatch Thrice.phase_refused.symm.trans hk

end EnterpriseSystem.Resilience
