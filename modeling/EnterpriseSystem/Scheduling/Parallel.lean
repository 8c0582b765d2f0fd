import EnterpriseSystem.Base.Run

/-!
# Parallel execution with a concurrency limit

`parallel` of `src/common/utils/async.util.ts`: workers that share an index into a
list of tasks, an array of results and one of errors.

* `Call` — what calling a task does; its promise settles later, in any order.
* `Parallel` — a call of `parallel` at its awaits, with which tasks have been
  called and what has become of them.
* `work` — a worker from where it resumes up to its next `await`.
* `ParallelStep` — a worker is spawned, a task settles, a worker resumes, and the
  function itself goes on once `Promise.all` or `Promise.allSettled` has settled.
-/

namespace EnterpriseSystem.Scheduling

open Relational

/-! ## Tasks and their errors -/

/-- What a task fails with. -/
inductive Reason (E : Type) where
  /-- An `Error`. -/
  | error (e : E)
  /-- Another value: the text that `String` makes of it, unless that throws. -/
  | other (text : Option String)
  deriving DecidableEq

/-- An `Error` of `parallel`. -/
inductive TaskError (E : Type) where
  | thrown (e : E)
  /-- `new Error(message)`. -/
  | made (message : String)
  deriving DecidableEq

/-- `err instanceof Error ? err : new Error(String(err))`, unless `String` throws. -/
def Reason.toError {E : Type} : Reason E → Option (TaskError E)
  | error e => some (.thrown e)
  | other text => text.map .made

/-- What the call of a task does. -/
inductive Call (E : Type) where
  /-- It returns a promise. -/
  | returns
  | throws (reason : Reason E)
  deriving DecidableEq

/-- `ParallelOptions`. -/
structure ParallelOptions where
  concurrency : ℕ
  failFast : Bool

/-- `Partial<ParallelOptions>`. -/
structure PartialOptions where
  concurrency : Option ℕ := none
  failFast : Option Bool := none

/-- `DEFAULT_PARALLEL_OPTIONS`. -/
def DEFAULT_PARALLEL_OPTIONS : ParallelOptions := { concurrency := 5, failFast := true }

/-- `{ ...DEFAULT_PARALLEL_OPTIONS, ...options }`. -/
def PartialOptions.withDefaults (options : PartialOptions) : ParallelOptions :=
  { concurrency := options.concurrency.getD DEFAULT_PARALLEL_OPTIONS.concurrency
    failFast := options.failFast.getD DEFAULT_PARALLEL_OPTIONS.failFast }

/-! ## The call -/

/-- What has become of a task. -/
inductive TaskStatus (V E : Type) where
  | notCalled
  | pending
  | fulfilled (value : V)
  | rejected (reason : Reason E)
  deriving DecidableEq

/-- Where a worker is.  What `String` throws is left open. -/
inductive Worker (E : Type) where
  /-- At the `await` of that task. -/
  | awaiting (index : ℕ)
  | finished
  | rejected (error : Option (TaskError E))
  deriving DecidableEq

/-- What the promise of `parallel` has come to. -/
inductive Outcome (V E : Type) where
  | pending
  /-- The array of results, which may have holes. -/
  | resolved (results : List (Option V))
  | rejected (error : Option (TaskError E))
  | aggregateError (errors : List (TaskError E)) (message : String)
  deriving DecidableEq

/-- A call of `parallel`.  `failure` is what the first worker to reject has rejected
with; `status` and `called` are the tasks' side. -/
structure Parallel (V E : Type) where
  currentIndex : ℕ
  results : List (Option V)
  errors : List (TaskError E)
  workers : List (Worker E)
  failure : Option (Option (TaskError E))
  promise : Outcome V E
  status : ℕ → TaskStatus V E
  called : List ℕ

namespace Parallel

variable {V E : Type} (tasks : List (Call E)) (opts : ParallelOptions)

/-- Before the first worker is spawned. -/
def start : Parallel V E :=
  { currentIndex := 0, results := List.replicate tasks.length none, errors := [], workers := []
    failure := none, promise := .pending, status := fun _ => .notCalled, called := [] }

/-- The next task is called. -/
def callNext (σ : Parallel V E) (status : TaskStatus V E) : Parallel V E :=
  { σ with
    currentIndex := σ.currentIndex + 1
    called := σ.called ++ [σ.currentIndex]
    status := Function.update σ.status σ.currentIndex status }

/-- The `catch` of a worker: it goes on, or rejects. -/
def caught (σ : Parallel V E) (reason : Reason E) : Except (Option (TaskError E)) (Parallel V E) :=
  match reason.toError with
  | none => .error none
  | some error =>
    if opts.failFast then .error (some error) else .ok { σ with errors := σ.errors ++ [error] }

/-- The `while` of a worker up to its next `await`, for so many more tasks. -/
def loop : ℕ → Parallel V E → Parallel V E × Worker E
  | 0, σ => (σ, .finished)
  | fuel + 1, σ =>
    match tasks[σ.currentIndex]? with
    | none => (σ, .finished)
    | some .returns => (σ.callNext .pending, .awaiting σ.currentIndex)
    | some (.throws reason) =>
      match (σ.callNext (.rejected reason)).caught opts reason with
      | .ok σ => loop fuel σ
      | .error error => (σ.callNext (.rejected reason), .rejected error)

/-- A worker from the head of its `while` up to its next `await`. -/
def work (σ : Parallel V E) : Parallel V E × Worker E :=
  loop tasks opts (tasks.length - σ.currentIndex) σ

/-- A worker once the task it awaits has settled. -/
def resume (σ : Parallel V E) (index : ℕ) (outcome : Except (Reason E) V) :
    Parallel V E × Worker E :=
  match outcome with
  | .ok value => work tasks opts { σ with results := σ.results.set index (some value) }
  | .error reason =>
    match σ.caught opts reason with
    | .ok σ => work tasks opts σ
    | .error error => (σ, .rejected error)

/-- The first worker to reject counts. -/
def noteFailure (σ : Parallel V E) (worker : Worker E) : Parallel V E :=
  match worker, σ.failure with
  | .rejected error, none => { σ with failure := some error }
  | _, _ => σ

/-- How many workers there are to be. -/
def width : ℕ := min opts.concurrency tasks.length

/-- `worker()` is called once more. -/
def spawn (σ : Parallel V E) : Parallel V E :=
  let (σ, worker) := work tasks opts σ
  { σ with workers := σ.workers ++ [worker] }.noteFailure worker

/-- A task settles. -/
def settle (σ : Parallel V E) (index : ℕ) (outcome : Except (Reason E) V) : Parallel V E :=
  { σ with
    status := Function.update σ.status index (match outcome with
      | .ok value => .fulfilled value
      | .error reason => .rejected reason) }

/-- What has become of a task reaches its worker. -/
def deliver (σ : Parallel V E) (w index : ℕ) (outcome : Except (Reason E) V) : Parallel V E :=
  let (σ, worker) := resume tasks opts σ index outcome
  { σ with workers := σ.workers.set w worker }.noteFailure worker

/-- `Promise.all` or `Promise.allSettled` of the workers has settled. -/
def Joined (σ : Parallel V E) : Prop :=
  σ.workers.length = width tasks opts ∧
    if opts.failFast then σ.failure ≠ none ∨ ∀ worker ∈ σ.workers, worker = .finished
    else ∀ worker ∈ σ.workers, ∀ index, worker ≠ .awaiting index

/-- The rest of the function. -/
def conclude (σ : Parallel V E) : Parallel V E :=
  { σ with
    promise :=
      if opts.failFast then
        match σ.failure with
        | some error => .rejected error
        | none => .resolved σ.results
      else if σ.errors.length > 0 then
        .aggregateError σ.errors s!"{σ.errors.length} of {tasks.length} tasks failed"
      else .resolved σ.results }

end Parallel

/-- How a task that has settled did. -/
def TaskStatus.outcome? {V E : Type} : TaskStatus V E → Option (Except (Reason E) V)
  | fulfilled value => some (.ok value)
  | rejected reason => some (.error reason)
  | _ => none

/-- What happens. -/
inductive ParallelLabel (V E : Type) where
  | spawn
  | settle (index : ℕ) (outcome : Except (Reason E) V)
  | deliver (w : ℕ)
  | conclude

section

variable {V E : Type} {tasks : List (Call E)} {opts : ParallelOptions}

/-- One step.  The workers are all spawned before anything is delivered. -/
inductive ParallelStep (tasks : List (Call E)) (opts : ParallelOptions) :
    Parallel V E → ParallelLabel V E → Parallel V E → Prop where
  | spawn {σ : Parallel V E} : σ.workers.length < Parallel.width tasks opts →
      ParallelStep tasks opts σ .spawn (σ.spawn tasks opts)
  | settle {σ : Parallel V E} {index : ℕ} {outcome : Except (Reason E) V} :
      σ.status index = .pending →
      ParallelStep tasks opts σ (.settle index outcome) (σ.settle index outcome)
  | deliver {σ : Parallel V E} {w index : ℕ} {outcome : Except (Reason E) V} :
      σ.workers.length = Parallel.width tasks opts → σ.workers[w]? = some (.awaiting index) →
      (σ.status index).outcome? = some outcome →
      ParallelStep tasks opts σ (.deliver w) (σ.deliver tasks opts w index outcome)
  | conclude {σ : Parallel V E} : σ.promise = .pending → σ.Joined tasks opts →
      ParallelStep tasks opts σ .conclude (σ.conclude tasks opts)

/-- **The loop of the source**: while there are tasks, the next one is called. -/
theorem Parallel.work_eq (σ : Parallel V E) :
    σ.work tasks opts = match tasks[σ.currentIndex]? with
      | none => (σ, .finished)
      | some .returns => (σ.callNext .pending, .awaiting σ.currentIndex)
      | some (.throws reason) =>
        match (σ.callNext (.rejected reason)).caught opts reason with
        | .ok σ => σ.work tasks opts
        | .error error => (σ.callNext (.rejected reason), .rejected error) := by
  unfold work
  cases hcall : tasks[σ.currentIndex]? with
  | none =>
    have hdone : tasks.length - σ.currentIndex = 0 := by
      have hle := List.getElem?_eq_none_iff.1 hcall
      omega
    rw [hdone]
    rfl
  | some call =>
    obtain ⟨hlt, -⟩ := List.getElem?_eq_some_iff.1 hcall
    obtain ⟨fuel, hfuel⟩ : ∃ fuel, tasks.length - σ.currentIndex = fuel + 1 :=
      ⟨tasks.length - σ.currentIndex - 1, by omega⟩
    rw [hfuel, loop, hcall]
    cases call with
    | returns => rfl
    | throws reason =>
      dsimp only
      cases hcaught : (σ.callNext (.rejected reason)).caught opts reason with
      | error error => rfl
      | ok σ' =>
        have hindex : σ'.currentIndex = σ.currentIndex + 1 := by
          unfold caught at hcaught
          cases herror : reason.toError with
          | none =>
            rw [herror] at hcaught
            exact nomatch hcaught
          | some error =>
            rw [herror] at hcaught
            dsimp only at hcaught
            split_ifs at hcaught
            rw [← Except.ok.inj hcaught]
            rfl
        dsimp only
        congr 1
        omega

end

end EnterpriseSystem.Scheduling
