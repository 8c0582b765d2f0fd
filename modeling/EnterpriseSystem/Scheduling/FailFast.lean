import EnterpriseSystem.Scheduling.Parallel

/-!
# `parallel` after a failure

With `failFast`, the first failure stops the worker it is delivered to.

* `FirstFailure`, `CallsTask` — what a step delivers, and whether it calls a task.
* `Cancelled` — in a run, no task is called after the first failure.
* `Quiet` — there are no more tasks, or nobody who would call one: the workers have
  been spawned, and those in the middle of a task await one that has failed, too.
* `cancelled_iff` — after its first failure a call is cancelled, in whatever order
  the tasks settle, exactly when it is quiet by then.
-/

namespace EnterpriseSystem.Scheduling

open Relational

section

variable {V E : Type}

/-- A worker rejects, the first one to do so. -/
def FirstFailure (p : Parallel V E × ParallelLabel V E × Parallel V E) : Prop :=
  p.1.failure = none ∧ p.2.2.failure ≠ none

/-- A task is called. -/
def CallsTask (p : Parallel V E × ParallelLabel V E × Parallel V E) : Prop :=
  p.2.2.called ≠ p.1.called

/-- No task is called after the first failure. -/
def Cancelled (steps : List (Parallel V E × ParallelLabel V E × Parallel V E)) : Prop :=
  ∀ pre p post, steps = pre ++ p :: post → FirstFailure p → ∀ q ∈ post, ¬ CallsTask q

/-- There are no more tasks to call, or no worker that would call one. -/
def Quiet (tasks : List (Call E)) (opts : ParallelOptions) (σ : Parallel V E) : Prop :=
  tasks.length ≤ σ.currentIndex ∨
    σ.workers.length = Parallel.width tasks opts ∧
      ∀ index, Worker.awaiting index ∈ σ.workers → ∃ reason, σ.status index = .rejected reason

variable {tasks : List (Call E)} {opts : ParallelOptions} {σ σ' : Parallel V E}
  {l : ParallelLabel V E}

/-! ## Workers that fail fast -/

namespace Parallel

theorem caught_fast (hfast : opts.failFast = true) (σ : Parallel V E) (reason : Reason E) :
    ∃ error, σ.caught opts reason = .error error := by
  unfold caught
  cases reason.toError with
  | none => exact ⟨_, rfl⟩
  | some error => exact ⟨_, if_pos hfast⟩

/-- What a worker that fails fast does: it stops, or calls the next task and awaits
that one at most. -/
inductive Goes (tasks : List (Call E)) (σ : Parallel V E) : Parallel V E → Worker E → Prop where
  | stops (results : List (Option V)) {worker : Worker E} :
      (∀ index, worker ≠ .awaiting index) → Goes tasks σ { σ with results := results } worker
  | calls (results : List (Option V)) {status : TaskStatus V E} {worker : Worker E} :
      σ.currentIndex < tasks.length → status ≠ .notCalled →
      (∀ index, worker = .awaiting index → index = σ.currentIndex) →
      Goes tasks σ ({ σ with results := results }.callNext status) worker

theorem Goes.of_results {σ ρ : Parallel V E} {results : List (Option V)} {worker : Worker E}
    (h : Goes tasks { σ with results := results } ρ worker) : Goes tasks σ ρ worker := by
  cases h with
  | stops results hstops => exact .stops results hstops
  | calls results hlt hstatus hindex => exact .calls results hlt hstatus hindex

variable (tasks) in
theorem work_goes (hfast : opts.failFast = true) (σ : Parallel V E) :
    Goes tasks σ (σ.work tasks opts).1 (σ.work tasks opts).2 := by
  rw [work_eq]
  cases hcall : tasks[σ.currentIndex]? with
  | none => exact .stops σ.results nofun
  | some call =>
    obtain ⟨hlt, -⟩ := List.getElem?_eq_some_iff.1 hcall
    cases call with
    | returns => exact .calls σ.results hlt nofun fun index h => (Worker.awaiting.inj h).symm
    | throws reason =>
      obtain ⟨error, herror⟩ := caught_fast hfast (σ.callNext (.rejected reason)) reason
      dsimp only
      rw [herror]
      exact .calls σ.results hlt nofun nofun

/-- While there are tasks, a worker calls one. -/
theorem called_work (hfast : opts.failFast = true) {σ : Parallel V E}
    (hlt : σ.currentIndex < tasks.length) : (σ.work tasks opts).1.called ≠ σ.called := by
  have hmore : ∀ index : ℕ, σ.called ++ [index] ≠ σ.called := fun index h =>
    nomatch List.append_cancel_left (h.trans (List.append_nil _).symm)
  rw [work_eq, List.getElem?_eq_getElem hlt]
  cases tasks[σ.currentIndex] with
  | returns => exact hmore _
  | throws reason =>
    obtain ⟨error, herror⟩ := caught_fast hfast (σ.callNext (.rejected reason)) reason
    dsimp only
    rw [herror]
    exact hmore _

variable (tasks) in
/-- A worker whose task has failed stops. -/
theorem resume_error (hfast : opts.failFast = true) (σ : Parallel V E) (index : ℕ)
    (reason : Reason E) :
    ∃ error, σ.resume tasks opts index (.error reason) = (σ, .rejected error) := by
  obtain ⟨error, herror⟩ := caught_fast hfast σ reason
  unfold resume
  dsimp only
  rw [herror]
  exact ⟨error, rfl⟩

variable (tasks) in
theorem resume_goes (hfast : opts.failFast = true) (σ : Parallel V E) (index : ℕ)
    (outcome : Except (Reason E) V) :
    Goes tasks σ (σ.resume tasks opts index outcome).1 (σ.resume tasks opts index outcome).2 := by
  cases outcome with
  | ok value => exact (work_goes tasks hfast _).of_results
  | error reason =>
    obtain ⟨error, herror⟩ := resume_error tasks hfast σ index reason
    rw [herror]
    exact .stops σ.results nofun

/-- To note a failure changes nothing else. -/
theorem noteFailure_eq (σ : Parallel V E) (worker : Worker E) :
    ∃ failure, σ.noteFailure worker = { σ with failure := failure } ∧
      (σ.failure ≠ none → failure ≠ none) := by
  unfold noteFailure
  split
  · exact ⟨_, rfl, fun _ => nofun⟩
  · exact ⟨σ.failure, rfl, id⟩

theorem Goes.workers_eq {σ ρ : Parallel V E} {worker : Worker E} (h : Goes tasks σ ρ worker) :
    ρ.workers = σ.workers := by
  cases h <;> rfl

theorem Goes.failure_eq {σ ρ : Parallel V E} {worker : Worker E} (h : Goes tasks σ ρ worker) :
    ρ.failure = σ.failure := by
  cases h <;> rfl

variable (tasks) in
theorem spawn_fast (hfast : opts.failFast = true) (σ : Parallel V E) :
    ∃ ρ worker failure, Goes tasks σ ρ worker ∧
      σ.spawn tasks opts = { ρ with workers := σ.workers ++ [worker], failure := failure } ∧
      (σ.failure ≠ none → failure ≠ none) := by
  have hgoes := work_goes tasks hfast σ
  obtain ⟨failure, hnoted, hstays⟩ := noteFailure_eq
    { (σ.work tasks opts).1 with workers := σ.workers ++ [(σ.work tasks opts).2] }
    (σ.work tasks opts).2
  refine ⟨_, _, failure, hgoes, ?_, fun h => hstays (hgoes.failure_eq ▸ h)⟩
  rw [← hnoted, ← hgoes.workers_eq]
  rfl

variable (tasks) in
theorem deliver_fast (hfast : opts.failFast = true) (σ : Parallel V E) (w index : ℕ)
    (outcome : Except (Reason E) V) :
    ∃ ρ worker failure, Goes tasks σ ρ worker ∧
      σ.deliver tasks opts w index outcome =
        { ρ with workers := σ.workers.set w worker, failure := failure } ∧
      (σ.failure ≠ none → failure ≠ none) ∧
      (ρ, worker) = σ.resume tasks opts index outcome := by
  have hgoes := resume_goes tasks hfast σ index outcome
  obtain ⟨failure, hnoted, hstays⟩ := noteFailure_eq
    { (σ.resume tasks opts index outcome).1 with
      workers := σ.workers.set w (σ.resume tasks opts index outcome).2 }
    (σ.resume tasks opts index outcome).2
  refine ⟨_, _, failure, hgoes, ?_, fun h => hstays (hgoes.failure_eq ▸ h), rfl⟩
  rw [← hnoted, ← hgoes.workers_eq]
  rfl

end Parallel

/-! ## One step -/

/-- The first failure is noted for good. -/
theorem failure_step (hfast : opts.failFast = true) (hs : ParallelStep tasks opts σ l σ')
    (h : σ.failure ≠ none) : σ'.failure ≠ none := by
  cases hs with
  | spawn _ =>
    obtain ⟨ρ, worker, failure, -, heq, hstays⟩ := σ.spawn_fast tasks hfast
    rw [heq]
    exact hstays h
  | @deliver w index outcome _ _ _ =>
    obtain ⟨ρ, worker, failure, -, heq, hstays, -⟩ :=
      σ.deliver_fast tasks hfast w index outcome
    rw [heq]
    exact hstays h
  | settle _ => exact h
  | conclude _ _ => exact h

/-- **A quiet call** stays quiet, and calls nothing. -/
theorem Quiet.step (hfast : opts.failFast = true) (h : Quiet tasks opts σ)
    (hs : ParallelStep tasks opts σ l σ') : Quiet tasks opts σ' ∧ ¬ CallsTask (σ, l, σ') := by
  cases hs with
  | spawn hlt =>
    obtain ⟨ρ, worker, failure, hgoes, heq, -⟩ := σ.spawn_fast tasks hfast
    rw [heq]
    rcases h with hdone | ⟨hlength, -⟩
    · cases hgoes with
      | stops results _ => exact ⟨.inl hdone, fun hcalls => hcalls rfl⟩
      | calls results hmore _ _ => exact absurd hmore (not_lt.2 hdone)
    · exact absurd hlength hlt.ne
  | @settle index outcome hstatus =>
    refine ⟨h.imp_right fun ⟨hlength, hfailed⟩ => ⟨hlength, fun i hi => ?_⟩, fun hcalls => hcalls rfl⟩
    obtain ⟨reason, hreason⟩ := hfailed i hi
    have hne : i ≠ index := by
      rintro rfl
      exact nomatch hstatus.symm.trans hreason
    exact ⟨reason, (Function.update_of_ne hne ..).trans hreason⟩
  | @deliver w index outcome hlength hworker hstatus =>
    obtain ⟨ρ, worker, failure, hgoes, heq, -, hresume⟩ :=
      σ.deliver_fast tasks hfast w index outcome
    rw [heq]
    rcases h with hdone | ⟨-, hfailed⟩
    · cases hgoes with
      | stops results _ => exact ⟨.inl hdone, fun hcalls => hcalls rfl⟩
      | calls results hmore _ _ => exact absurd hmore (not_lt.2 hdone)
    · -- the task has failed, so its worker stops as well
      obtain ⟨reason, hreason⟩ := hfailed index (List.mem_of_getElem? hworker)
      rw [hreason] at hstatus
      obtain rfl : .error reason = outcome := Option.some.inj hstatus
      obtain ⟨error, herror⟩ := σ.resume_error tasks hfast index reason
      obtain ⟨rfl, rfl⟩ := Prod.mk.inj (hresume.trans herror)
      refine ⟨.inr ⟨List.length_set.trans hlength, fun i hi => ?_⟩, fun hcalls => hcalls rfl⟩
      rcases List.mem_or_eq_of_mem_set hi with hold | hnew
      · exact hfailed i hold
      · exact nomatch hnew
  | conclude _ _ => exact ⟨h, fun hcalls => hcalls rfl⟩

/-- Workers await tasks that have been called, and are no more than there are to be. -/
def Manned (tasks : List (Call E)) (opts : ParallelOptions) (σ : Parallel V E) : Prop :=
  σ.workers.length ≤ Parallel.width tasks opts ∧
    ∀ index, Worker.awaiting index ∈ σ.workers → σ.status index ≠ .notCalled

theorem Manned.of_goes {ρ : Parallel V E} {worker : Worker E} (h : Manned tasks opts σ)
    (hgoes : Parallel.Goes tasks σ ρ worker) {index : ℕ}
    (hmem : Worker.awaiting index ∈ σ.workers ∨ worker = .awaiting index) :
    ρ.status index ≠ .notCalled := by
  cases hgoes with
  | stops results hstops =>
    rcases hmem with hold | hnew
    · exact h.2 index hold
    · exact absurd hnew (hstops index)
  | calls results hlt hstatus hindex =>
    by_cases hi : index = σ.currentIndex
    · subst hi
      rw [show Parallel.status _ σ.currentIndex = _ from Function.update_self ..]
      exact hstatus
    · rw [show Parallel.status _ index = _ from Function.update_of_ne hi ..]
      rcases hmem with hold | hnew
      · exact h.2 index hold
      · exact absurd (hindex index hnew) hi

theorem Manned.step (hfast : opts.failFast = true) (h : Manned tasks opts σ)
    (hs : ParallelStep tasks opts σ l σ') : Manned tasks opts σ' := by
  cases hs with
  | spawn hlt =>
    obtain ⟨ρ, worker, failure, hgoes, heq, -⟩ := σ.spawn_fast tasks hfast
    rw [heq]
    refine ⟨?_, fun index hindex => h.of_goes hgoes ?_⟩
    · rw [List.length_append, List.length_singleton]
      exact hlt
    · exact (List.mem_append.1 hindex).imp_right fun hnew => (List.mem_singleton.1 hnew).symm
  | @settle index outcome hstatus =>
    refine ⟨h.1, fun i hi => ?_⟩
    by_cases hii : i = index
    · subst hii
      rw [show (σ.settle i outcome).status i = _ from Function.update_self ..]
      cases outcome <;> exact nofun
    · rw [show (σ.settle index outcome).status i = _ from Function.update_of_ne hii ..]
      exact h.2 i hi
  | @deliver w index outcome hlength hworker hstatus =>
    obtain ⟨ρ, worker, failure, hgoes, heq, -, -⟩ :=
      σ.deliver_fast tasks hfast w index outcome
    rw [heq]
    refine ⟨List.length_set.trans_le h.1, fun i hi => h.of_goes hgoes ?_⟩
    exact (List.mem_or_eq_of_mem_set hi).imp_right Eq.symm
  | conclude _ _ => exact h

/-! ## What follows -/

theorem Manned.start (tasks : List (Call E)) (opts : ParallelOptions) :
    Manned tasks opts ((.start tasks : Parallel V E)) := ⟨Nat.zero_le _, nofun⟩

theorem called_spawn (σ : Parallel V E) :
    (σ.spawn tasks opts).called = (σ.work tasks opts).1.called := by
  obtain ⟨failure, hnoted, -⟩ := Parallel.noteFailure_eq
    { (σ.work tasks opts).1 with workers := (σ.work tasks opts).1.workers ++
      [(σ.work tasks opts).2] } (σ.work tasks opts).2
  unfold Parallel.spawn
  dsimp only
  rw [hnoted]

theorem called_deliver (σ : Parallel V E) (w index : ℕ) (outcome : Except (Reason E) V) :
    (σ.deliver tasks opts w index outcome).called =
      (σ.resume tasks opts index outcome).1.called := by
  obtain ⟨failure, hnoted, -⟩ := Parallel.noteFailure_eq
    { (σ.resume tasks opts index outcome).1 with
      workers := (σ.resume tasks opts index outcome).1.workers.set w
        (σ.resume tasks opts index outcome).2 } (σ.resume tasks opts index outcome).2
  unfold Parallel.deliver
  dsimp only
  rw [hnoted]

/-- A worker whose task has been fulfilled calls the next one. -/
theorem exists_call_of_fulfilled (hfast : opts.failFast = true)
    (hlength : σ.workers.length = Parallel.width tasks opts) {w index : ℕ}
    (hworker : σ.workers[w]? = some (.awaiting index)) {value : V}
    (hstatus : σ.status index = .fulfilled value) (hlt : σ.currentIndex < tasks.length) :
    ∃ more σ', Run (ParallelStep tasks opts) Always σ more σ' ∧ ∃ q ∈ more, CallsTask q := by
  have hdeliver : ParallelStep tasks opts σ (.deliver w) (σ.deliver tasks opts w index (.ok value)) :=
    .deliver hlength hworker (by rw [hstatus]; rfl)
  refine ⟨_, _, .next .start trivial hdeliver, _, List.mem_singleton_self _, ?_⟩
  show (σ.deliver tasks opts w index (.ok value)).called ≠ σ.called
  rw [called_deliver]
  exact Parallel.called_work hfast hlt

/-- **A call that is not quiet** may still call a task. -/
theorem exists_call [Nonempty V] (hfast : opts.failFast = true) (h : Manned tasks opts σ)
    (hloud : ¬ Quiet tasks opts σ) :
    ∃ more σ', Run (ParallelStep tasks opts) Always σ more σ' ∧ ∃ q ∈ more, CallsTask q := by
  unfold Quiet at hloud
  push Not at hloud
  obtain ⟨hlt, hloud⟩ := hloud
  by_cases hlength : σ.workers.length = Parallel.width tasks opts
  case neg =>
    have hspawn : ParallelStep tasks opts σ .spawn (σ.spawn tasks opts) :=
      .spawn (h.1.lt_of_ne hlength)
    refine ⟨_, _, .next .start trivial hspawn, _, List.mem_singleton_self _, ?_⟩
    show (σ.spawn tasks opts).called ≠ σ.called
    rw [called_spawn]
    exact Parallel.called_work hfast hlt
  obtain ⟨index, hmem, hnot⟩ := hloud hlength
  obtain ⟨w, hworker⟩ := List.getElem?_of_mem hmem
  cases hstatus : σ.status index with
  | notCalled => exact absurd hstatus (h.2 index hmem)
  | rejected reason => exact absurd hstatus (hnot reason)
  | fulfilled value => exact exists_call_of_fulfilled hfast hlength hworker hstatus hlt
  | pending =>
    -- the task may be fulfilled first
    obtain ⟨value⟩ := ‹Nonempty V›
    have hsettle : ParallelStep tasks opts σ (.settle index (.ok value))
        (σ.settle index (.ok value)) := .settle hstatus
    have hfulfilled : (σ.settle index (.ok value)).status index = .fulfilled value :=
      Function.update_self ..
    obtain ⟨more, σ', hmore, q, hq, hcalls⟩ :=
      exists_call_of_fulfilled (σ := σ.settle index (.ok value)) hfast hlength hworker hfulfilled hlt
    exact ⟨_, σ', (Run.next .start trivial hsettle).append hmore, q,
      List.mem_append_right _ hq, hcalls⟩

/-- Nothing is called from a state on, in any order, exactly when it is quiet. -/
theorem quiet_iff [Nonempty V] (hfast : opts.failFast = true) (h : Manned tasks opts σ) :
    (∀ more σ', Run (ParallelStep tasks opts) Always σ more σ' → ∀ q ∈ more, ¬ CallsTask q) ↔
      Quiet tasks opts σ := by
  constructor
  · intro hnone
    by_contra hloud
    obtain ⟨more, σ', hmore, q, hq, hcalls⟩ := exists_call hfast h hloud
    exact hnone more σ' hmore q hq hcalls
  · intro hquiet more σ' hmore
    have hinvariant : Quiet tasks opts σ' ∧ ∀ q ∈ more, ¬ CallsTask q := by
      induction hmore with
      | start => exact ⟨hquiet, by simp⟩
      | next _ _ hs ih =>
        obtain ⟨hbefore, hnone⟩ := ih
        obtain ⟨hafter, hstep⟩ := hbefore.step hfast hs
        refine ⟨hafter, fun q hq => ?_⟩
        rcases List.mem_append.1 hq with hq | hq
        · exact hnone q hq
        · rw [List.mem_singleton.1 hq]
          exact hstep
    exact hinvariant.2

/-- A failure that was noted stays noted along a run. -/
theorem failure_of_reach (hfast : opts.failFast = true)
    (hreach : Reach (ParallelStep tasks opts) Always σ σ') (h : σ.failure ≠ none) :
    σ'.failure ≠ none := by
  induction hreach with
  | start => exact h
  | next _ _ hs ih => exact failure_step hfast hs ih

/-- **A call is cancelled by its first failure**, in whatever order the tasks settle
afterwards, exactly when it is quiet by then. -/
theorem cancelled_iff [Nonempty V] {options : PartialOptions}
    {pre : List (Parallel V E × ParallelLabel V E × Parallel V E)}
    {p : Parallel V E × ParallelLabel V E × Parallel V E}
    (hfast : options.withDefaults.failFast = true)
    (hrun : Run (ParallelStep tasks options.withDefaults) Always (.start tasks) (pre ++ [p]) σ)
    (hfailure : FirstFailure p) :
    (∀ post σ', Run (ParallelStep tasks options.withDefaults) Always (.start tasks)
        (pre ++ p :: post) σ' → Cancelled (pre ++ p :: post)) ↔
      Quiet tasks options.withDefaults σ := by
  have hmanned : Manned tasks options.withDefaults σ := by
    refine hrun.reach.invariant (.start tasks _) ?_
    intro σ l σ' hbefore _ hs
    exact hbefore.step hfast hs
  rw [← quiet_iff hfast hmanned]
  obtain ⟨hpre, -, rfl⟩ := hrun.of_concat
  constructor
  · intro hcancelled more σ' hmore
    have hall := hrun.append hmore
    rw [← List.append_cons] at hall
    exact hcancelled more σ' hall pre p more rfl hfailure
  · intro hnone post σ' hpost pre' p' post' heq hfailure' q hq
    rw [List.append_cons] at hpost
    obtain ⟨s₁, hfirst, hrest⟩ := hpost.of_append
    obtain ⟨-, -, rfl⟩ := hfirst.of_concat
    have hquiet := hnone post σ' hrest
    rcases List.append_eq_append_iff.1 heq with ⟨between, rfl, hsplit⟩ | ⟨between, rfl, hsplit⟩
    · -- it is the failure of `p`, or one after it
      rcases between with _ | ⟨first, between⟩
      · obtain ⟨-, rfl⟩ := List.cons.inj hsplit
        exact hquiet q hq
      · obtain ⟨-, rfl⟩ := List.cons.inj hsplit
        exact hquiet q (List.mem_append_right _ (List.mem_cons_of_mem _ hq))
    · -- an earlier failure would have been noted before that of `p`
      rcases between with _ | ⟨first, between⟩
      · obtain ⟨-, rfl⟩ := List.cons.inj hsplit
        exact hquiet q hq
      · obtain ⟨rfl, -⟩ := List.cons.inj hsplit
        rw [List.append_cons] at hpre
        obtain ⟨s, hnoted, hlater⟩ := hpre.of_append
        obtain ⟨-, -, rfl⟩ := hnoted.of_concat
        exact absurd hfailure.1 (failure_of_reach hfast hlater.reach hfailure'.2)

end

/-! ## Three tasks -/

namespace ThreeTasks

def tasks : List (Call Unit) := [.returns, .returns, .returns]

def options : PartialOptions := { concurrency := some 2, failFast := some true }

/-- One worker has called the first task. -/
def one : Parallel ℕ Unit := (Parallel.start tasks).spawn tasks options.withDefaults

/-- Another one has called the second. -/
def two : Parallel ℕ Unit := one.spawn tasks options.withDefaults

/-- The first task fails. -/
def failed : Parallel ℕ Unit := two.settle 0 (.error (.error ()))

/-- Its worker rejects. -/
def rejected : Parallel ℕ Unit :=
  failed.deliver tasks options.withDefaults 0 0 (.error (.error ()))

/-- The second task is fulfilled. -/
def fulfilled : Parallel ℕ Unit := rejected.settle 1 (.ok 7)

/-- Its worker calls the third one. -/
def third : Parallel ℕ Unit := fulfilled.deliver tasks options.withDefaults 1 1 (.ok 7)

/-- The history up to the failure. -/
def steps : List (Parallel ℕ Unit × ParallelLabel ℕ Unit × Parallel ℕ Unit) :=
  [(.start tasks, .spawn, one), (one, .spawn, two), (two, .settle 0 (.error (.error ())), failed)]

theorem run_rejected : Run (ParallelStep tasks options.withDefaults) Always (.start tasks)
    (steps ++ [(failed, .deliver 0, rejected)]) rejected :=
  .next (.next (.next (.next .start trivial (.spawn (by decide))) trivial (.spawn (by decide)))
    trivial (.settle rfl)) trivial (.deliver rfl rfl rfl)

theorem run_third : Run (ParallelStep tasks options.withDefaults) Always rejected
    [(rejected, .settle 1 (.ok 7), fulfilled), (fulfilled, .deliver 1, third)] third :=
  .next (.next .start trivial (.settle rfl)) trivial (.deliver rfl rfl rfl)

end ThreeTasks

/-- The other worker is at its task by then, and there is one more. -/
theorem cancelled_iff_rejected :
    (∀ post σ', Run (ParallelStep ThreeTasks.tasks ThreeTasks.options.withDefaults) Always
        (.start ThreeTasks.tasks)
        (ThreeTasks.steps ++ (ThreeTasks.failed, .deliver 0, ThreeTasks.rejected) :: post) σ' →
      Cancelled (ThreeTasks.steps ++
        (ThreeTasks.failed, .deliver 0, ThreeTasks.rejected) :: post)) ↔
      Quiet ThreeTasks.tasks ThreeTasks.options.withDefaults ThreeTasks.rejected :=
  cancelled_iff rfl ThreeTasks.run_rejected ⟨rfl, nofun⟩

/-- A task is called after the failure. -/
theorem not_cancelled :
    ¬ ∀ (tasks : List (Call Unit)) (options : PartialOptions)
        (steps : List (Parallel ℕ Unit × ParallelLabel ℕ Unit × Parallel ℕ Unit))
        (σ : Parallel ℕ Unit),
        1 ≤ options.withDefaults.concurrency → options.withDefaults.failFast = true →
          Run (ParallelStep tasks options.withDefaults) Always (.start tasks) steps σ →
            Cancelled steps := by
  intro h
  have hall := h ThreeTasks.tasks ThreeTasks.options _ _ (by decide) rfl
    (ThreeTasks.run_rejected.append ThreeTasks.run_third)
  rw [List.append_assoc] at hall
  refine hall _ _ _ rfl ⟨rfl, nofun⟩ (ThreeTasks.fulfilled, .deliver 1, ThreeTasks.third) ?_ ?_
  · simp
  · show ThreeTasks.third.called ≠ ThreeTasks.fulfilled.called
    decide +kernel

end EnterpriseSystem.Scheduling
