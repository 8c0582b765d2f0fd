import EnterpriseSystem.Base.Async

/-!
# The event processor

`src/infrastructure/messaging/event-processor.service.ts` over the two
operations it uses of `src/infrastructure/cache/cache.service.ts`.

* `ProcessorOp`, `Broker`, `ProcessorOp.exec` — the commands the code awaits and
  the handlers it calls; each may fail, before it takes effect or after.
* `CacheService`, `EventProcessorService.processEvent` — the code.
* `Deliveries` — any number of deliveries interleaved at their awaits, while
  marks expire and others use the cache.
* `no_event_lost` — what resolves has been handled by every handler.
* `handled_at_most_once` — a handler completes at most once for an event when
  every delivery that finds no mark is alone and finds nothing done.
-/

namespace EnterpriseSystem.Messaging

open Relational Concurrency

/-! ## Operations -/

/-- The data of a job. -/
structure JobData where
  eventId : String
  eventName : String
  payload : String
  deriving DecidableEq

/-- What is thrown. -/
inductive ProcessorError where
  /-- By the Redis client. -/
  | redis (message : String)
  | cacheError (message : String)
  /-- By a handler. -/
  | handler
  deriving DecidableEq

/-- `error.message`. -/
def ProcessorError.message : ProcessorError → String
  | redis message => message
  | cacheError message => message
  | handler => "handler failed"

/-- The operations awaited. -/
inductive ProcessorOp where
  /-- `redis.exists(key)`. -/
  | existsKey (key : String)
  /-- `redis.setex(key, ttl, value)`. -/
  | setex (key : String) (ttl : ℕ) (value : String)
  /-- The call of the handler registered in that place for the name of the event. -/
  | handle (place : ℕ) (job : JobData)

/-- What an operation answers. -/
def ProcessorOp.Ans : ProcessorOp → Type
  | existsKey _ => ℕ
  | setex .. => Unit
  | handle .. => Unit

/-- An asynchronous function of the processor. -/
abbrev ProcessorTask (α : Type) : Type := Task ProcessorOp ProcessorOp.Ans ProcessorError α

/-- How an operation goes. -/
inductive Outcome where
  | succeeds
  | fails
  /-- It takes effect, and its answer is lost. -/
  | unanswered
  deriving DecidableEq

/-- The cache, the handlers that have completed (for which event, and in which
place), and how the operations go, by their numbers. -/
structure Broker where
  keys : String → Bool
  completed : List (String × ℕ)
  outcomes : ℕ → Outcome
  performed : ℕ

namespace Broker

/-- How the next operation goes. -/
def outcome (b : Broker) : Outcome := b.outcomes b.performed

/-- After one more operation. -/
def next (b : Broker) : Broker := { b with performed := b.performed + 1 }

end Broker

/-- One operation. -/
def ProcessorOp.exec : (o : ProcessorOp) → Broker → Except ProcessorError o.Ans × Broker
  | .existsKey key, b =>
    if b.outcome = .succeeds then (.ok (if b.keys key then (1 : ℕ) else (0 : ℕ)), b.next)
    else (.error (.redis "Connection is closed."), b.next)
  | .setex key _ _, b =>
    let stored := { b.next with keys := Function.update b.keys key true }
    match b.outcome with
    | .succeeds => (.ok (), stored)
    | .fails => (.error (.redis "Connection is closed."), b.next)
    | .unanswered => (.error (.redis "Command timed out"), stored)
  | .handle place job, b =>
    if b.outcome = .succeeds then
      (.ok (), { b.next with completed := (job.eventId, place) :: b.completed })
    else (.error .handler, b.next)

namespace ProcessorTask

/-- `this.redis.exists(key)`. -/
def existsKey (key : String) : ProcessorTask ℕ := Task.await (ProcessorOp.existsKey key)

/-- `this.redis.setex(key, ttl, value)`. -/
def setex (key : String) (ttl : ℕ) (value : String) : ProcessorTask Unit :=
  Task.await (ProcessorOp.setex key ttl value)

/-- `handler(payload, job)`. -/
def handle (place : ℕ) (job : JobData) : ProcessorTask Unit :=
  Task.await (ProcessorOp.handle place job)

end ProcessorTask

/-! ## The code -/

namespace CacheService

/-- `has`: an error means that there is no such key. -/
def has (key : String) : ProcessorTask Bool :=
  tryCatch (do
    let found ← ProcessorTask.existsKey key
    return found == 1) fun _ => return false

/-- `set`, of a string. -/
def set (key value : String) (ttl : ℕ) : ProcessorTask Unit :=
  tryCatch (ProcessorTask.setex key ttl ("\"" ++ value ++ "\"")) fun error =>
    let message := error.message
    throw (.cacheError s!"Cache set failed: {message}")

end CacheService

namespace EventProcessorService

/-- `DEDUP_PREFIX`. -/
def DEDUP_PREFIX : String := "event-processed:"

/-- `DEDUP_TTL_SECONDS`. -/
def DEDUP_TTL_SECONDS : ℕ := 86400

/-- The key of the mark of an event. -/
def mark (eventId : String) : String := DEDUP_PREFIX ++ eventId

/-- `isAlreadyProcessed`. -/
def isAlreadyProcessed (eventId : String) : ProcessorTask Bool :=
  tryCatch (CacheService.has (mark eventId)) fun _ => return false

/-- `markProcessed`. -/
def markProcessed (eventId : String) : ProcessorTask Unit :=
  tryCatch (CacheService.set (mark eventId) "1" DEDUP_TTL_SECONDS) fun _ => return ()

/-- The loop over the handlers; the first error ends it. -/
def runHandlers (job : JobData) : List ℕ → ProcessorTask Unit
  | [] => return ()
  | place :: places => do
    tryCatch (ProcessorTask.handle place job) fun error => throw error
    runHandlers job places

/-- `processEvent`, where so many handlers are registered for a name. -/
def processEvent (handlers : String → Option ℕ) (job : JobData) : ProcessorTask Unit := do
  let alreadyProcessed ← isAlreadyProcessed job.eventId
  if alreadyProcessed then
    return ()
  else
    match handlers job.eventName with
    | none => return ()
    | some 0 => return ()
    | some (n + 1) => do
      runHandlers job (List.range (n + 1))
      markProcessed job.eventId

end EventProcessorService

open EventProcessorService

/-! ## The places within `processEvent` -/

/-- A delivery at one of its awaits. -/
abbrev Delivery : Type :=
  Prog ProcessorOp (fun o => Except ProcessorError o.Ans) (Except ProcessorError Unit)

/-- Before the mark is set. -/
def marking (job : JobData) : Delivery :=
  .op (.setex (mark job.eventId) DEDUP_TTL_SECONDS "\"1\"") fun _ => .ret (.ok ())

/-- Before the handlers in these places. -/
def handling (job : JobData) : List ℕ → Delivery
  | [] => marking job
  | place :: places => .op (.handle place job) fun r => match r with
    | .ok () => handling job places
    | .error e => .ret (.error e)

/-- How many handlers are registered for the event of a job. -/
def registered (handlers : String → Option ℕ) (job : JobData) : ℕ :=
  (handlers job.eventName).getD 0

/-- After the check, when there is no mark. -/
def unmarked (handlers : String → Option ℕ) (job : JobData) : Delivery :=
  if registered handlers job = 0 then .ret (.ok ())
  else handling job (List.range (registered handlers job))

/-- After the check. -/
def checked (handlers : String → Option ℕ) (job : JobData) : Except ProcessorError ℕ → Delivery
  | .ok found => if found = 1 then .ret (.ok ()) else unmarked handlers job
  | .error _ => unmarked handlers job

/-- Before the check of the mark. -/
def checking (handlers : String → Option ℕ) (job : JobData) : Delivery :=
  .op (.existsKey (mark job.eventId)) (checked handlers job)

theorem run_markProcessed (job : JobData) :
    ExceptT.run (markProcessed job.eventId) = marking job := by
  refine congrArg (Prog.op _) (funext fun r => ?_)
  cases r with
  | error e => rfl
  | ok _ => rfl

/-- The handlers, and the mark after them. -/
theorem run_runHandlers (job : JobData) (places : List ℕ) :
    ExceptT.run (do
      runHandlers job places
      markProcessed job.eventId) = handling job places := by
  induction places with
  | nil => exact run_markProcessed job
  | cons place places ih =>
    refine congrArg (Prog.op (ProcessorOp.handle place job)) (funext fun r => ?_)
    cases r with
    | error e => rfl
    | ok _ => exact ih

theorem run_processEvent (handlers : String → Option ℕ) (job : JobData) :
    ExceptT.run (processEvent handlers job) = checking handlers job := by
  have hunmarked : ExceptT.run (match handlers job.eventName with
      | none => return ()
      | some 0 => return ()
      | some (n + 1) => do
        runHandlers job (List.range (n + 1))
        markProcessed job.eventId : ProcessorTask Unit) = unmarked handlers job := by
    unfold unmarked registered
    rcases handlers job.eventName with - | - | n
    · rfl
    · rfl
    · exact run_runHandlers job (List.range (n + 1))
  refine congrArg (Prog.op (ProcessorOp.existsKey (mark job.eventId))) (funext fun r => ?_)
  cases r with
  | error e => exact hunmarked
  | ok found =>
    by_cases hfound : (show ℕ from found) = 1
    · obtain rfl : found = (1 : ℕ) := hfound
      rfl
    · have hnext : checked handlers job (.ok found) = unmarked handlers job := if_neg hfound
      refine Eq.trans ?_ (hunmarked.trans hnext.symm)
      have hbeq : ((show ℕ from found) == 1) = false := beq_eq_false_iff_ne.2 hfound
      show ExceptT.run (if ((show ℕ from found) == 1) = true then return ()
        else match handlers job.eventName with
          | none => return ()
          | some 0 => return ()
          | some (n + 1) => do
            runHandlers job (List.range (n + 1))
            markProcessed job.eventId : ProcessorTask Unit) = _
      rw [hbeq]
      rfl

/-! ## Deliveries -/

/-- Deliveries on one broker. -/
abbrev Deliveries (ι : Type) : Type :=
  System ι Broker ProcessorOp ProcessorOp.Ans ProcessorError Unit

/-- Others use the cache: marks may expire, and only `processEvent` sets them. -/
def CacheMoves (b b' : Broker) : Prop :=
  ∃ keys, b' = { b with keys := keys } ∧
    ∀ eventId, keys (mark eventId) = true → b.keys (mark eventId) = true

/-- The deliveries before their checks. -/
def Deliveries.start {ι : Type} (handlers : String → Option ℕ) (jobs : ι → JobData) (b : Broker) :
    Deliveries ι :=
  System.start b fun i => processEvent handlers (jobs i)

/-- One operation of a delivery, or a move of the cache. -/
abbrev Deliveries.Step {ι : Type} [DecidableEq ι] : Deliveries ι → Option ι → Deliveries ι → Prop :=
  System.Step ProcessorOp.exec CacheMoves

/-! ## Places -/

/-- Where a delivery is: before its check, after so many handlers, or over. -/
inductive Place where
  | checking
  | handling (k : ℕ)
  | finished (r : Except ProcessorError Unit)

/-- What a delivery in that place still does. -/
def Place.rest (handlers : String → Option ℕ) (job : JobData) : Place → Delivery
  | checking => Messaging.checking handlers job
  | handling k => Messaging.handling job ((List.range (registered handlers job)).drop k)
  | finished r => .ret r

/-- The next operation of a delivery leads from the one place to the other. -/
inductive Moves (handlers : String → Option ℕ) (job : JobData) (b : Broker) :
    Place → Place → Broker → Prop where
  /-- There is a mark. -/
  | skips : b.keys (mark job.eventId) = true → b.outcome = .succeeds →
      Moves handlers job b .checking (.finished (.ok ())) b.next
  /-- There is no handler. -/
  | acknowledges : registered handlers job = 0 →
      Moves handlers job b .checking (.finished (.ok ())) b.next
  /-- No mark was seen. -/
  | begins : 0 < registered handlers job →
      ¬ (b.keys (mark job.eventId) = true ∧ b.outcome = .succeeds) →
      Moves handlers job b .checking (.handling 0) b.next
  | completes {k : ℕ} : k < registered handlers job →
      Moves handlers job b (.handling k) (.handling (k + 1))
        { b.next with completed := (job.eventId, k) :: b.completed }
  | throws {k : ℕ} (e : ProcessorError) : k < registered handlers job →
      Moves handlers job b (.handling k) (.finished (.error e)) b.next
  | marks : Moves handlers job b (.handling (registered handlers job)) (.finished (.ok ()))
      { b.next with keys := Function.update b.keys (mark job.eventId) true }
  /-- The mark could not be set. -/
  | leaves : Moves handlers job b (.handling (registered handlers job)) (.finished (.ok ())) b.next

section

variable {handlers : String → Option ℕ} {job : JobData} {b : Broker}

theorem rest_handling_of_lt {k : ℕ} (h : k < registered handlers job) :
    (Place.handling k).rest handlers job = .op (.handle k job) fun r => match r with
      | .ok () => (Place.handling (k + 1)).rest handlers job
      | .error e => .ret (.error e) := by
  have hdrop : (List.range (registered handlers job)).drop k =
      k :: (List.range (registered handlers job)).drop (k + 1) := by
    rw [List.drop_eq_getElem_cons (by simpa using h), List.getElem_range]
  show handling job ((List.range (registered handlers job)).drop k) = _
  rw [hdrop]
  rfl

theorem rest_handling_registered :
    (Place.handling (registered handlers job)).rest handlers job = marking job := by
  show handling job ((List.range (registered handlers job)).drop (registered handlers job)) = _
  rw [List.drop_of_length_le (by simp)]
  rfl

variable (handlers job b) in
theorem moves_checking :
    ∃ o g place', Place.checking.rest handlers job = .op o g ∧
      g (o.exec b).1 = place'.rest handlers job ∧
      Moves handlers job b .checking place' (o.exec b).2 := by
  have hunmarked : ¬ (b.keys (mark job.eventId) = true ∧ b.outcome = .succeeds) →
      ∃ place' : Place, unmarked handlers job = place'.rest handlers job ∧
        Moves handlers job b .checking place' b.next := by
    intro hnot
    unfold unmarked
    split_ifs with hnone
    · exact ⟨.finished (.ok ()), rfl, .acknowledges hnone⟩
    · exact ⟨.handling 0, rfl, .begins (Nat.pos_of_ne_zero hnone) hnot⟩
  refine ⟨.existsKey (mark job.eventId), checked handlers job, ?_⟩
  by_cases hup : b.outcome = .succeeds
  · have hexec : ProcessorOp.exec (.existsKey (mark job.eventId)) b =
        (.ok (if b.keys (mark job.eventId) then (1 : ℕ) else (0 : ℕ)), b.next) := if_pos hup
    cases hmark : b.keys (mark job.eventId) with
    | true =>
      rw [hmark] at hexec
      refine ⟨.finished (.ok ()), rfl, ?_⟩
      rw [hexec]
      exact ⟨rfl, .skips hmark hup⟩
    | false =>
      rw [hmark] at hexec
      obtain ⟨place', hrest, hmoves⟩ := hunmarked fun h => nomatch hmark.symm.trans h.1
      refine ⟨place', rfl, ?_⟩
      rw [hexec]
      exact ⟨hrest, hmoves⟩
  · have hexec : ProcessorOp.exec (.existsKey (mark job.eventId)) b =
        (.error (.redis "Connection is closed."), b.next) := if_neg hup
    obtain ⟨place', hrest, hmoves⟩ := hunmarked fun h => hup h.2
    refine ⟨place', rfl, ?_⟩
    rw [hexec]
    exact ⟨hrest, hmoves⟩

theorem moves_handling {k : ℕ} (h : k ≤ registered handlers job) :
    ∃ o g place', (Place.handling k).rest handlers job = .op o g ∧
      g (o.exec b).1 = place'.rest handlers job ∧
      Moves handlers job b (.handling k) place' (o.exec b).2 := by
  rcases h.lt_or_eq with hlt | rfl
  · by_cases hup : b.outcome = .succeeds
    · have hexec : ProcessorOp.exec (.handle k job) b =
          (.ok (), { b.next with completed := (job.eventId, k) :: b.completed }) := if_pos hup
      refine ⟨_, _, .handling (k + 1), rest_handling_of_lt hlt, ?_⟩
      rw [hexec]
      exact ⟨rfl, .completes hlt⟩
    · have hexec : ProcessorOp.exec (.handle k job) b = (.error .handler, b.next) := if_neg hup
      refine ⟨_, _, .finished (.error .handler), rest_handling_of_lt hlt, ?_⟩
      rw [hexec]
      exact ⟨rfl, .throws _ hlt⟩
  · refine ⟨_, _, .finished (.ok ()), rest_handling_registered, rfl, ?_⟩
    unfold ProcessorOp.exec
    dsimp only
    cases b.outcome with
    | succeeds => exact .marks
    | fails => exact .leaves
    | unanswered => exact .marks

end

/-! ## The stages of all deliveries -/

/-- The broker, and where each delivery is. -/
structure Stages (ι : Type) where
  broker : Broker
  place : ι → Place

section

variable {ι : Type} [DecidableEq ι] {handlers : String → Option ℕ} {jobs : ι → JobData}

/-- One operation of a delivery, or a move of the cache. -/
inductive StagesStep (handlers : String → Option ℕ) (jobs : ι → JobData) :
    Stages ι → Option ι → Stages ι → Prop where
  | moves {s : Stages ι} {i : ι} {place' : Place} {b' : Broker} :
      Moves handlers (jobs i) s.broker (s.place i) place' b' →
      StagesStep handlers jobs s (some i) ⟨b', Function.update s.place i place'⟩
  | cache {s : Stages ι} {b' : Broker} : CacheMoves s.broker b' →
      StagesStep handlers jobs s none ⟨b', s.place⟩

/-- Nobody has checked. -/
def Stages.start (ι : Type) (b : Broker) : Stages ι := ⟨b, fun _ => .checking⟩

/-- The deliveries are in these places. -/
structure InPlace (handlers : String → Option ℕ) (jobs : ι → JobData) (σ : Deliveries ι)
    (s : Stages ι) : Prop where
  broker : σ.shared = s.broker
  rest : ∀ i, σ.tasks i = (s.place i).rest handlers (jobs i)
  within : ∀ i k, s.place i = .handling k → k ≤ registered handlers (jobs i)

variable {σ σ' : Deliveries ι} {s s' : Stages ι} {l : Option ι}

omit [DecidableEq ι] in
theorem InPlace.start (b : Broker) :
    InPlace handlers jobs (Deliveries.start handlers jobs b) (.start ι b) where
  broker := rfl
  rest i := run_processEvent handlers (jobs i)
  within _ _ h := nomatch h

omit [DecidableEq ι] in
/-- A place is left for one that is within the handlers. -/
theorem Moves.within {job : JobData} {b b' : Broker} {place place' : Place}
    (h : Moves handlers job b place place' b') {k : ℕ} (hk : place' = .handling k) :
    k ≤ registered handlers job := by
  cases h with
  | begins _ _ => cases hk; exact Nat.zero_le _
  | completes hlt => cases hk; exact hlt
  | _ => exact nomatch hk

/-- **The stages simulate the code.** -/
theorem InPlace.step (h : InPlace handlers jobs σ s) (hs : Deliveries.Step σ l σ') :
    ∃ s', InPlace handlers jobs σ' s' ∧ StagesStep handlers jobs s l s' := by
  cases l with
  | none =>
    obtain ⟨hmoves, htasks⟩ := hs.of_none
    rw [h.broker] at hmoves
    refine ⟨⟨σ'.shared, s.place⟩, ⟨rfl, fun i => ?_, h.within⟩, .cache hmoves⟩
    rw [htasks]
    exact h.rest i
  | some i =>
    obtain ⟨o, k, hop, hshared, hself, hothers⟩ := hs.of_some
    have hmoves : ∃ place', k (o.exec s.broker).1 = place'.rest handlers (jobs i) ∧
        Moves handlers (jobs i) s.broker (s.place i) place' (o.exec s.broker).2 := by
      rw [h.rest i] at hop
      cases hplace : s.place i with
      | checking =>
        obtain ⟨o', g, place', hrest, hnext, hmoves⟩ :=
          moves_checking handlers (jobs i) s.broker
        rw [hplace, hrest] at hop
        cases hop
        exact ⟨place', hnext, hmoves⟩
      | handling n =>
        obtain ⟨o', g, place', hrest, hnext, hmoves⟩ :=
          moves_handling (b := s.broker) (h.within i n hplace)
        rw [hplace, hrest] at hop
        cases hop
        exact ⟨place', hnext, hmoves⟩
      | finished r =>
        rw [hplace] at hop
        exact nomatch hop
    obtain ⟨place', hnext, hmoves⟩ := hmoves
    rw [h.broker] at hshared hself
    refine ⟨⟨σ'.shared, Function.update s.place i place'⟩, ⟨rfl, fun j => ?_, fun j n hj => ?_⟩,
      hshared ▸ .moves hmoves⟩
    · show σ'.tasks j = (Function.update s.place i place' j).rest handlers (jobs j)
      by_cases hji : j = i
      · subst hji
        rw [Function.update_self, hself, hnext]
      · rw [Function.update_of_ne hji, hothers j hji]
        exact h.rest j
    · by_cases hji : j = i
      · subst hji
        have hj : Function.update s.place j place' j = .handling n := hj
        rw [Function.update_self] at hj
        exact hmoves.within hj
      · replace hj : Function.update s.place i place' j = .handling n := hj
        rw [Function.update_of_ne hji] at hj
        exact h.within j n hj

omit [DecidableEq ι] in
theorem InPlace.resolved (h : InPlace handlers jobs σ s) {i : ι}
    (hresolved : σ.result? i = some (.ok ())) : s.place i = .finished (.ok ()) := by
  have hresult : (σ.tasks i).result? = some (.ok ()) := hresolved
  rw [h.rest i] at hresult
  cases hplace : s.place i with
  | checking =>
    rw [hplace] at hresult
    exact nomatch hresult
  | handling k =>
    rw [hplace] at hresult
    obtain ⟨o, g, -, hrest, -⟩ := moves_handling (b := s.broker) (h.within i k hplace)
    rw [hrest] at hresult
    exact nomatch hresult
  | finished r =>
    rw [hplace] at hresult
    rw [Option.some.inj hresult]

omit [DecidableEq ι] in
theorem InPlace.performs_checking (h : InPlace handlers jobs σ s) {i : ι}
    (hplace : s.place i = .checking) : σ.Performs i (.existsKey (mark (jobs i).eventId)) := by
  refine ⟨checked handlers (jobs i), ?_⟩
  rw [h.rest i, hplace]
  rfl

end

/-! ## No event is lost -/

/-- An event has its own mark. -/
theorem mark_injective {e e' : String} (h : mark e = mark e') : e = e' := by
  have hlists : (DEDUP_PREFIX ++ e).toList = (DEDUP_PREFIX ++ e').toList := congrArg _ h
  rw [String.toList_append, String.toList_append] at hlists
  exact String.toList_injective (List.append_cancel_left hlists)

section

variable {handlers : String → Option ℕ} {job : JobData} {b b' : Broker} {place place' : Place}

/-- What has been completed stays so. -/
theorem Moves.completed_subset (h : Moves handlers job b place place' b') {x : String × ℕ}
    (hx : x ∈ b.completed) : x ∈ b'.completed := by
  cases h with
  | completes _ => exact List.mem_cons_of_mem _ hx
  | _ => exact hx

/-- A mark was there before, or is set after all handlers. -/
theorem Moves.of_marked (h : Moves handlers job b place place' b') {eventId : String}
    (hmark : b'.keys (mark eventId) = true) :
    b.keys (mark eventId) = true ∨
      eventId = job.eventId ∧ place = .handling (registered handlers job) := by
  cases h with
  | marks =>
    have hmark : Function.update b.keys (mark job.eventId) true (mark eventId) = true := hmark
    by_cases hid : eventId = job.eventId
    · exact .inr ⟨hid, rfl⟩
    · rw [Function.update_of_ne fun he => hid (mark_injective he)] at hmark
      exact .inl hmark
  | _ => exact .inl hmark

/-- So many handlers have completed for the event of a job. -/
def Handled (b : Broker) (job : JobData) (n : ℕ) : Prop :=
  ∀ k < n, (job.eventId, k) ∈ b.completed

theorem Moves.handled_mono (h : Moves handlers job b place place' b') {job' : JobData} {n : ℕ}
    (hn : Handled b job' n) : Handled b' job' n :=
  fun k hk => h.completed_subset (hn k hk)

/-- Handlers are gone through in order. -/
theorem Moves.handled_handling (h : Moves handlers job b place place' b')
    (hbefore : ∀ n, place = .handling n → Handled b job n) {n : ℕ}
    (hplace : place' = .handling n) : Handled b' job n := by
  cases h with
  | begins _ _ =>
    cases hplace
    exact fun k hk => absurd hk k.not_lt_zero
  | @completes m _ =>
    cases hplace
    intro k hk
    rcases Nat.lt_succ_iff_lt_or_eq.1 hk with hk | rfl
    · exact List.mem_cons_of_mem _ (hbefore m rfl k hk)
    · exact List.mem_cons_self ..
  | _ => exact nomatch hplace

/-- A delivery resolves when there is a mark, or nobody to call, or when all
handlers have completed. -/
theorem Moves.handled_finished (h : Moves handlers job b place place' b')
    (hmarked : b.keys (mark job.eventId) = true → Handled b job (registered handlers job))
    (hbefore : ∀ n, place = .handling n → Handled b job n)
    (hplace : place' = .finished (.ok ())) : Handled b' job (registered handlers job) := by
  cases h with
  | skips hmark _ => exact hmarked hmark
  | acknowledges hnone =>
    rw [hnone]
    exact fun k hk => absurd hk k.not_lt_zero
  | marks => exact hbefore _ rfl
  | leaves => exact hbefore _ rfl
  | begins _ _ => exact nomatch hplace
  | completes _ => exact nomatch hplace
  | throws _ _ => exact nomatch hplace

end

section

variable {ι : Type} [DecidableEq ι] {handlers : String → Option ℕ} {jobs : ι → JobData}
variable {s s' : Stages ι} {l : Option ι}

/-- **The bookkeeping**: a mark stands for all handlers, and so does a delivery
that has resolved; one within the loop stands for the handlers before it. -/
structure Accounted (handlers : String → Option ℕ) (jobs : ι → JobData) (s : Stages ι) : Prop where
  marked : ∀ i, s.broker.keys (mark (jobs i).eventId) = true →
    Handled s.broker (jobs i) (registered handlers (jobs i))
  handling : ∀ i n, s.place i = .handling n → Handled s.broker (jobs i) n
  finished : ∀ i, s.place i = .finished (.ok ()) →
    Handled s.broker (jobs i) (registered handlers (jobs i))

/-- The id of an event identifies it. -/
def Identified (jobs : ι → JobData) : Prop :=
  ∀ i j, (jobs i).eventId = (jobs j).eventId → (jobs i).eventName = (jobs j).eventName

omit [DecidableEq ι] in
theorem Accounted.start {b : Broker} (hunmarked : ∀ eventId, b.keys (mark eventId) = false) :
    Accounted handlers jobs (.start ι b) where
  marked i h := nomatch (hunmarked (jobs i).eventId).symm.trans h
  handling _ _ h := nomatch h
  finished _ h := nomatch h

omit [DecidableEq ι] in
theorem Handled.congr {b : Broker} {i j : ι} {n : ℕ}
    (hid : (jobs i).eventId = (jobs j).eventId) (h : Handled b (jobs j) n) :
    Handled b (jobs i) n := by
  intro k hk
  rw [hid]
  exact h k hk

/-- **Every step keeps the bookkeeping.** -/
theorem Accounted.step (hidentified : Identified jobs) (h : Accounted handlers jobs s)
    (hs : StagesStep handlers jobs s l s') : Accounted handlers jobs s' := by
  cases hs with
  | cache hmoves =>
    obtain ⟨keys, rfl, hexpire⟩ := hmoves
    exact ⟨fun i hmark => h.marked i (hexpire _ hmark), h.handling, h.finished⟩
  | @moves i place' b' hmoves =>
    refine ⟨fun j hmark => ?_, fun j n hplace => ?_, fun j hplace => ?_⟩
    · rcases hmoves.of_marked hmark with hmark | ⟨hid, hplace⟩
      · exact hmoves.handled_mono (h.marked j hmark)
      · have hregistered : registered handlers (jobs j) = registered handlers (jobs i) := by
          unfold registered
          rw [hidentified j i hid]
        rw [hregistered]
        exact hmoves.handled_mono (.congr hid (h.handling i _ hplace))
    · have hplace : Function.update s.place i place' j = .handling n := hplace
      by_cases hji : j = i
      · subst hji
        rw [Function.update_self] at hplace
        exact hmoves.handled_handling (h.handling j) hplace
      · rw [Function.update_of_ne hji] at hplace
        exact hmoves.handled_mono (h.handling j n hplace)
    · have hplace : Function.update s.place i place' j = .finished (.ok ()) := hplace
      by_cases hji : j = i
      · subst hji
        rw [Function.update_self] at hplace
        exact hmoves.handled_finished (h.marked j) (h.handling j) hplace
      · rw [Function.update_of_ne hji] at hplace
        exact hmoves.handled_mono (h.finished j hplace)

/-- **No event is lost**: however deliveries interleave, handlers fail, the cache
fails and marks expire, a delivery that has resolved leaves an event that every
handler registered for it has completed. -/
theorem no_event_lost (hidentified : Identified jobs) {b : Broker}
    (hunmarked : ∀ eventId, b.keys (mark eventId) = false) {σ : Deliveries ι}
    (h : Reach Deliveries.Step Always (Deliveries.start handlers jobs b) σ) {i : ι}
    (hresolved : σ.result? i = some (.ok ())) :
    ∀ k < registered handlers (jobs i), ((jobs i).eventId, k) ∈ σ.shared.completed := by
  obtain ⟨s, hin, hreach⟩ : ∃ s, InPlace handlers jobs σ s ∧
      Reach (StagesStep handlers jobs) Always (.start ι b) s :=
    h.simulate (InPlace.start b)
      fun hin _ hs => (hin.step hs).imp fun _ h => ⟨h.1, trivial, h.2⟩
  have haccounted : Accounted handlers jobs s :=
    hreach.invariant (.start hunmarked) fun h _ hs => h.step hidentified hs
  rw [hin.broker]
  exact haccounted.finished i (hin.resolved hresolved)

end

/-- A broker on which everything succeeds. -/
def Broker.fresh : Broker := ⟨fun _ => false, [], fun _ => .succeeds, 0⟩

/-- `user.created`. -/
def userCreated : JobData := ⟨"5f2a", "user.created", "\x7b\x7d"⟩

/-- The schedule of deliveries of it to one handler. -/
def delivered {ι : Type} [DecidableEq ι] (is : List ι) : Deliveries ι :=
  is.foldl (System.next ProcessorOp.exec)
    (Deliveries.start (fun _ => some 1) (fun _ => userCreated) .fresh)

theorem run_delivered {ι : Type} [DecidableEq ι] {is : List ι}
    (h : (Deliveries.start (ι := ι) (fun _ => some 1) (fun _ => userCreated) .fresh).awaits
      ProcessorOp.exec is = true) :
    Run Deliveries.Step Always (Deliveries.start (fun _ => some 1) (fun _ => userCreated) .fresh)
      ((Deliveries.start (fun _ => some 1) (fun _ => userCreated) .fresh).schedule
        ProcessorOp.exec is) (delivered is) :=
  System.run_schedule h

/-- It is checked, handled and marked. -/
theorem no_event_lost_single :
    (userCreated.eventId, 0) ∈ (delivered [(), (), ()]).shared.completed :=
  no_event_lost (fun _ _ _ => rfl) (fun _ => rfl) (run_delivered (by decide +kernel)).reach
    (i := ()) (by decide +kernel) 0 (by decide)

section

variable {ι : Type} [DecidableEq ι] {handlers : String → Option ℕ} {jobs : ι → JobData}
variable {s s' : Stages ι} {l : Option ι}

/-! ## At most once -/

/-- A delivery has found no mark and has not resolved. -/
def Underway (σ : Deliveries ι) (i : ι) : Prop :=
  ∃ o, σ.Performs i o ∧ ∀ key, o ≠ .existsKey key

/-- A delivery of the event only checks for its mark when there is one, or else
when none of its handlers has completed and no other delivery of it is underway. -/
def ChecksAlone (jobs : ι → JobData) (σ : Deliveries ι) (l : Option ι) : Prop :=
  ∀ i, l = some i → σ.Performs i (.existsKey (mark (jobs i).eventId)) →
    (σ.shared.keys (mark (jobs i).eventId) = true ∧ σ.shared.outcome = .succeeds) ∨
    (∀ k, ((jobs i).eventId, k) ∉ σ.shared.completed) ∧
      ∀ j, j ≠ i → (jobs j).eventId = (jobs i).eventId → ¬ Underway σ j

/-- The same of the stages. -/
def Stages.ChecksAlone (jobs : ι → JobData) (s : Stages ι) (l : Option ι) : Prop :=
  ∀ i, l = some i → s.place i = .checking →
    (s.broker.keys (mark (jobs i).eventId) = true ∧ s.broker.outcome = .succeeds) ∨
    (∀ k, ((jobs i).eventId, k) ∉ s.broker.completed) ∧
      ∀ j, j ≠ i → (jobs j).eventId = (jobs i).eventId → ∀ n, s.place j ≠ .handling n

omit [DecidableEq ι] in
theorem InPlace.underway {σ : Deliveries ι} (h : InPlace handlers jobs σ s) {i : ι} {n : ℕ}
    (hplace : s.place i = .handling n) : Underway σ i := by
  have hrest : σ.tasks i = (Place.handling n).rest handlers (jobs i) := by
    rw [h.rest i, hplace]
  rcases (h.within i n hplace).lt_or_eq with hlt | rfl
  · exact ⟨.handle n (jobs i), ⟨_, hrest.trans (rest_handling_of_lt hlt)⟩, nofun⟩
  · exact ⟨.setex (mark (jobs i).eventId) DEDUP_TTL_SECONDS "\"1\"",
      ⟨_, hrest.trans rest_handling_registered⟩, nofun⟩

omit [DecidableEq ι] in
theorem InPlace.checksAlone {σ : Deliveries ι} (h : InPlace handlers jobs σ s)
    (halone : ChecksAlone jobs σ l) : s.ChecksAlone jobs l := by
  intro i hl hplace
  rcases halone i hl (h.performs_checking hplace) with hmark | ⟨hnone, hothers⟩
  · rw [h.broker] at hmark
    exact .inl hmark
  · rw [h.broker] at hnone
    exact .inr ⟨hnone, fun j hji hid n hn => hothers j hji hid (h.underway hn)⟩

/-- **At most one delivery of an event goes through its handlers**, and none of
the handlers before it has completed yet. -/
structure Once (jobs : ι → JobData) (s : Stages ι) : Prop where
  once : ∀ x, s.broker.completed.count x ≤ 1
  ahead : ∀ i n, s.place i = .handling n → ∀ k, n ≤ k → ((jobs i).eventId, k) ∉ s.broker.completed
  alone : ∀ i j n m, s.place i = .handling n → s.place j = .handling m →
    (jobs i).eventId = (jobs j).eventId → i = j

omit [DecidableEq ι] in
theorem Once.start {b : Broker} (hnone : b.completed = []) : Once jobs (.start ι b) where
  once x := by
    show b.completed.count x ≤ 1
    simp [hnone]
  ahead _ _ h := nomatch h
  alone _ _ _ _ h := nomatch h

/-- A delivery is within the handlers because it has just begun, or because one
more has completed. -/
theorem Moves.handling_cases {job : JobData} {b b' : Broker} {place : Place} {n : ℕ}
    (h : Moves handlers job b place (.handling n) b') :
    (place = .checking ∧ b'.completed = b.completed ∧
      ¬ (b.keys (mark job.eventId) = true ∧ b.outcome = .succeeds)) ∨
    ∃ m, place = .handling m ∧ n = m + 1 ∧ b'.completed = (job.eventId, m) :: b.completed := by
  cases h with
  | begins _ hnot => exact .inl ⟨rfl, rfl, hnot⟩
  | @completes m _ => exact .inr ⟨m, rfl, rfl, rfl⟩

/-- What completes is the handler a delivery is at. -/
theorem Moves.completed_cases {job : JobData} {b b' : Broker} {place place' : Place}
    (h : Moves handlers job b place place' b') :
    b'.completed = b.completed ∨
      ∃ m, place = .handling m ∧ b'.completed = (job.eventId, m) :: b.completed := by
  cases h with
  | @completes m _ => exact .inr ⟨m, rfl, rfl⟩
  | _ => exact .inl rfl

/-- Whoever gets within the handlers of an event is the only one there. -/
theorem Once.only {i j : ι} {n m : ℕ} {b' : Broker} (h : Once jobs s)
    (halone : s.ChecksAlone jobs (some i))
    (hmoves : Moves handlers (jobs i) s.broker (s.place i) (.handling n) b')
    (hj : s.place j = .handling m) (hid : (jobs j).eventId = (jobs i).eventId) : j = i := by
  rcases hmoves.handling_cases with ⟨hplace, -, hnot⟩ | ⟨k, hplace, -, -⟩
  · by_contra hji
    rcases halone i rfl hplace with hmark | ⟨-, hothers⟩
    · exact hnot hmark
    · exact hothers j hji hid m hj
  · exact h.alone j i m k hj hplace hid

/-- **Every step keeps it**, where deliveries check alone. -/
theorem Once.step (h : Once jobs s) (halone : s.ChecksAlone jobs l)
    (hs : StagesStep handlers jobs s l s') : Once jobs s' := by
  cases hs with
  | cache hmoves =>
    obtain ⟨keys, rfl, -⟩ := hmoves
    exact ⟨h.once, h.ahead, h.alone⟩
  | @moves i place' b' hmoves =>
    refine ⟨fun x => ?_, fun j n hplace k hk => ?_, fun j j' n m hj hj' hid => ?_⟩
    · show b'.completed.count x ≤ 1
      rcases hmoves.completed_cases with heq | ⟨m, hplace, heq⟩
      · rw [heq]
        exact h.once x
      · rw [heq]
        by_cases hx : x = ((jobs i).eventId, m)
        · have hnone := List.count_eq_zero.2 (h.ahead i m hplace m le_rfl)
          rw [hx, List.count_cons_self, hnone]
        · rw [List.count_cons_of_ne (Ne.symm hx)]
          exact h.once x
    · show ((jobs j).eventId, k) ∉ b'.completed
      have hplace : Function.update s.place i place' j = .handling n := hplace
      by_cases hji : j = i
      · subst hji
        rw [Function.update_self] at hplace
        subst hplace
        rcases hmoves.handling_cases with ⟨hbefore, heq, hnot⟩ | ⟨m, hbefore, rfl, heq⟩
        · rw [heq]
          rcases halone j rfl hbefore with hmark | ⟨hnone, -⟩
          · exact absurd hmark hnot
          · exact hnone k
        · rw [heq, List.mem_cons, not_or]
          refine ⟨fun hkm => ?_, h.ahead j m hbefore k (by omega)⟩
          have : k = m := (Prod.mk.inj hkm).2
          omega
      · rw [Function.update_of_ne hji] at hplace
        rcases hmoves.completed_cases with heq | ⟨m, hbefore, heq⟩
        · rw [heq]
          exact h.ahead j n hplace k hk
        · rw [heq, List.mem_cons, not_or]
          refine ⟨fun hkm => ?_, h.ahead j n hplace k hk⟩
          exact hji (h.alone j i n m hplace hbefore (Prod.mk.inj hkm).1)
    · replace hj : Function.update s.place i place' j = .handling n := hj
      replace hj' : Function.update s.place i place' j' = .handling m := hj'
      by_cases hji : j = i
      · subst hji
        rw [Function.update_self] at hj
        subst hj
        by_cases hji' : j' = j
        · exact hji'.symm
        · rw [Function.update_of_ne hji'] at hj'
          exact (h.only halone hmoves hj' hid.symm).symm
      · rw [Function.update_of_ne hji] at hj
        by_cases hji' : j' = i
        · subst hji'
          rw [Function.update_self] at hj'
          subst hj'
          exact h.only halone hmoves hj hid
        · rw [Function.update_of_ne hji'] at hj'
          exact h.alone j j' n m hj hj' hid

/-- **Each handler completes at most once for an event** in every run where the
deliveries of an event check alone. -/
theorem handled_at_most_once {b : Broker} (hnone : b.completed = []) {σ : Deliveries ι}
    (h : Reach Deliveries.Step (ChecksAlone jobs) (Deliveries.start handlers jobs b) σ)
    (eventId : String) (k : ℕ) : σ.shared.completed.count (eventId, k) ≤ 1 := by
  obtain ⟨s, hin, hreach⟩ : ∃ s, InPlace handlers jobs σ s ∧
      Reach (StagesStep handlers jobs) (Stages.ChecksAlone jobs) (.start ι b) s :=
    h.simulate (InPlace.start b)
      fun hin halone hs => (hin.step hs).imp fun _ h => ⟨h.1, hin.checksAlone halone, h.2⟩
  have honce : Once jobs s := hreach.invariant (.start hnone) fun h halone hs => h.step halone hs
  rw [hin.broker]
  exact honce.once (eventId, k)

end

/-- The event is delivered again after it has been marked. -/
theorem handled_at_most_once_redelivered :
    (delivered [false, false, false, true]).shared.completed.count (userCreated.eventId, 0) ≤ 1 := by
  refine handled_at_most_once rfl (Run.restrict (run_delivered (by decide +kernel)) ?_).reach
    userCreated.eventId 0
  intro p hp
  simp only [System.schedule, List.mem_cons, List.not_mem_nil, or_false] at hp
  rcases hp with rfl | rfl | rfl | rfl
  · rintro i hi -
    cases hi
    refine .inr ⟨fun k => List.not_mem_nil, fun j hj _ => ?_⟩
    rintro ⟨o, ⟨k, ho⟩, hcheck⟩
    have hstart := (run_processEvent (fun _ => some 1) userCreated).symm.trans ho
    cases hstart
    exact hcheck _ rfl
  · rintro i hi ⟨k, hk⟩
    cases hi
    exact nomatch hk
  · rintro i hi ⟨k, hk⟩
    cases hi
    exact nomatch hk
  · rintro i hi -
    cases hi
    exact .inl ⟨by decide +kernel, by decide +kernel⟩

/-- Within the lifetime of the marks, with the cache available. -/
def Undisturbed {ι : Type} (σ : Deliveries ι) (l : Option ι) : Prop :=
  ∃ i, l = some i ∧ ∀ o, σ.Performs i o → (∀ k job, o ≠ .handle k job) →
    σ.shared.outcome = .succeeds

/-- Two deliveries check before either has called the handler. -/
theorem not_handled_at_most_once :
    ¬ ∀ (handlers : String → Option ℕ) (jobs : Bool → JobData) (b : Broker) (σ : Deliveries Bool),
      (∀ eventId, b.keys (mark eventId) = false) → b.completed = [] →
      Reach Deliveries.Step Undisturbed (Deliveries.start handlers jobs b) σ →
      ∀ eventId k, σ.shared.completed.count (eventId, k) ≤ 1 := by
  intro h
  have hrun : Run Deliveries.Step Undisturbed _ _ (delivered [false, true, false, true]) :=
    Run.restrict (System.run_schedule (by decide +kernel)) fun p hp => by
      simp only [System.schedule, List.mem_cons, List.not_mem_nil, or_false] at hp
      rcases hp with rfl | rfl | rfl | rfl
      · exact ⟨false, rfl, fun _ _ _ => rfl⟩
      · exact ⟨true, rfl, fun _ _ _ => rfl⟩
      · exact ⟨false, rfl, fun _ _ _ => rfl⟩
      · exact ⟨true, rfl, fun _ _ _ => rfl⟩
  have htwice := h _ _ _ _ (fun _ => rfl) rfl hrun.reach userCreated.eventId 0
  exact absurd htwice (by decide +kernel)

end EnterpriseSystem.Messaging
