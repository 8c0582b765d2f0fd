import EnterpriseSystem.Scheduling.Parallel

/-!
# `parallel` as a bounded scheduler

What a call of `parallel` comes to when no error of a task stops a worker.

* `Collected` — `failFast` is off, and `String` makes a text of what a task has
  failed with.
* `Handed` — the tasks called so far are those in the hands of workers and those
  whose values and errors have been put away; `drawn_loop` — a worker keeps it so.
* `Scheduled` — the same of the whole call, with its workers; every step keeps it,
  and is one less to take (`Scheduled.remaining_lt`).
* `BoundedScheduler` — every task is called once, so many at a time, the results
  stand at the places of the tasks, and the errors are all there.
* `boundedScheduler` — so it is in every run in which each error is collected.
-/

namespace EnterpriseSystem.Scheduling

open Relational

section

variable {V E : Type} {tasks : List (Call E)} {opts : ParallelOptions}

/-! ## Tasks in hand -/

/-- The task a worker awaits. -/
def Worker.index? : Worker E → Option ℕ
  | awaiting index => some index
  | _ => none

/-- What a task has failed with, if it has. -/
def Parallel.reason? (σ : Parallel V E) (index : ℕ) : Option (Reason E) :=
  match σ.status index with
  | .rejected reason => some reason
  | _ => none

/-- A task that fails with this stops no worker: the error is collected. -/
def Collected (opts : ParallelOptions) (reason : Reason E) : Prop :=
  opts.failFast = false ∧ reason.toError.isSome

/-- What has become of a task is where the function looks for it. -/
def Parallel.Handled (σ : Parallel V E) (index : ℕ) : Prop :=
  (∃ value, σ.status index = .fulfilled value ∧ σ.results[index]? = some (some value)) ∨
    ∃ reason, σ.status index = .rejected reason

/-- The tasks called so far are those in the hands of workers and those handled. -/
structure Handed (tasks : List (Call E)) (opts : ParallelOptions) (inHand handled : List ℕ)
    (σ : Parallel V E) : Prop where
  called_eq : σ.called = List.range σ.currentIndex
  le_length : σ.currentIndex ≤ tasks.length
  perm : (inHand ++ handled).Perm (List.range σ.currentIndex)
  notCalled : ∀ i, σ.currentIndex ≤ i → σ.status i = .notCalled
  inHand_called : ∀ i ∈ inHand, σ.status i ≠ .notCalled
  isHandled : ∀ i ∈ handled, σ.Handled i
  results_length : σ.results.length = tasks.length
  errors_eq : σ.errors.map some = (handled.filterMap σ.reason?).map Reason.toError
  collected : ∀ i reason, σ.status i = .rejected reason → Collected opts reason

theorem Parallel.caught_of_collected {σ : Parallel V E} {reason : Reason E}
    (h : Collected opts reason) :
    ∃ error, reason.toError = some error ∧
      σ.caught opts reason = .ok { σ with errors := σ.errors ++ [error] } := by
  obtain ⟨error, herror⟩ := Option.isSome_iff_exists.1 h.2
  refine ⟨error, herror, ?_⟩
  unfold caught
  rw [herror]
  exact if_neg (by rw [h.1]; exact Bool.false_ne_true)

theorem Parallel.reason?_congr {σ σ' : Parallel V E} {i : ℕ} (h : σ'.status i = σ.status i) :
    σ'.reason? i = σ.reason? i := by
  unfold reason?
  rw [h]

namespace Handed

variable {inHand handled : List ℕ} {σ : Parallel V E}

theorem start (tasks : List (Call E)) (opts : ParallelOptions) : Handed tasks opts [] [] (Parallel.start (V := V) tasks) where
  called_eq := rfl
  le_length := Nat.zero_le _
  perm := .refl _
  notCalled _ _ := rfl
  inHand_called := nofun
  isHandled := nofun
  results_length := List.length_replicate
  errors_eq := rfl
  collected := nofun

theorem of_perm {inHand' : List ℕ} (h : Handed tasks opts inHand handled σ)
    (hperm : inHand'.Perm inHand) : Handed tasks opts inHand' handled σ :=
  { h with
    perm := (hperm.append_right handled).trans h.perm
    inHand_called := fun i hi => h.inHand_called i (hperm.subset hi) }

theorem lt_of_mem (h : Handed tasks opts inHand handled σ) {i : ℕ} (hi : i ∈ inHand ++ handled) :
    i < σ.currentIndex := List.mem_range.1 (h.perm.subset hi)

theorem mem_or_mem (h : Handed tasks opts inHand handled σ) {i : ℕ} (hi : i < σ.currentIndex) :
    i ∈ inHand ∨ i ∈ handled :=
  List.mem_append.1 (h.perm.symm.subset (List.mem_range.2 hi))

/-- The next task comes into hand. -/
theorem callNext (h : Handed tasks opts inHand handled σ) (hlt : σ.currentIndex < tasks.length)
    {status : TaskStatus V E} (hstatus : status ≠ .notCalled)
    (hcollected : ∀ reason, status = .rejected reason → Collected opts reason) :
    Handed tasks opts (σ.currentIndex :: inHand) handled (σ.callNext status) := by
  have hold : ∀ i, i ∈ inHand ++ handled → (σ.callNext status).status i = σ.status i :=
    fun i hi => Function.update_of_ne (h.lt_of_mem hi).ne ..
  refine ⟨?_, hlt, ?_, fun i hi => ?_, fun i hi => ?_, fun i hi => ?_, h.results_length, ?_,
    fun i reason hreason => ?_⟩
  · show σ.called ++ [σ.currentIndex] = List.range (σ.currentIndex + 1)
    rw [h.called_eq, List.range_succ]
  · show (σ.currentIndex :: (inHand ++ handled)).Perm (List.range (σ.currentIndex + 1))
    rw [List.range_succ]
    exact (h.perm.cons _).trans (List.perm_append_singleton _ _).symm
  · have hgt : σ.currentIndex + 1 ≤ i := hi
    exact (Function.update_of_ne (by omega) ..).trans (h.notCalled i (by omega))
  · rcases List.mem_cons.1 hi with rfl | hi
    · show Function.update σ.status σ.currentIndex status σ.currentIndex ≠ .notCalled
      rw [Function.update_self]
      exact hstatus
    · rw [hold i (List.mem_append_left _ hi)]
      exact h.inHand_called i hi
  · unfold Parallel.Handled
    rw [hold i (List.mem_append_right _ hi)]
    exact h.isHandled i hi
  · rw [show (σ.callNext status).errors = σ.errors from rfl, h.errors_eq]
    congr 1
    exact List.filterMap_congr fun i hi =>
      (Parallel.reason?_congr (hold i (List.mem_append_right _ hi))).symm
  · by_cases hi : i = σ.currentIndex
    · subst hi
      have hself : (σ.callNext status).status σ.currentIndex = status := Function.update_self ..
      exact hcollected reason (hself.symm.trans hreason)
    · have hother : (σ.callNext status).status i = σ.status i := Function.update_of_ne hi ..
      exact h.collected i reason (hother.symm.trans hreason)

theorem perm_handle {i : ℕ} (h : Handed tasks opts (i :: inHand) handled σ) :
    (inHand ++ (handled ++ [i])).Perm (List.range σ.currentIndex) := by
  rw [← List.append_assoc]
  exact (List.perm_append_singleton i _).trans h.perm

/-- A value is written to the place of its task. -/
theorem fulfil {i : ℕ} {value : V} (h : Handed tasks opts (i :: inHand) handled σ)
    (hstatus : σ.status i = .fulfilled value) :
    Handed tasks opts inHand (handled ++ [i])
      { σ with results := σ.results.set i (some value) } := by
  have hlt : i < σ.results.length := by
    rw [h.results_length]
    exact (h.lt_of_mem (List.mem_append_left _ (List.mem_cons_self ..))).trans_le h.le_length
  have hnodup : (i :: (inHand ++ handled)).Nodup := h.perm.nodup_iff.2 List.nodup_range
  have hnone : σ.reason? i = none := by
    unfold Parallel.reason?
    rw [hstatus]
  refine ⟨h.called_eq, h.le_length, h.perm_handle, h.notCalled,
    fun j hj => h.inHand_called j (List.mem_cons_of_mem _ hj), fun j hj => ?_,
    List.length_set.trans h.results_length, ?_, h.collected⟩
  · rcases List.mem_append.1 hj with hj | hj
    · have hne : i ≠ j := fun heq =>
        (List.nodup_cons.1 hnodup).1 (List.mem_append_right _ (heq ▸ hj))
      rcases h.isHandled j hj with ⟨value', hvalue, hresult⟩ | hfailed
      · exact .inl ⟨value', hvalue, (List.getElem?_set_ne hne).trans hresult⟩
      · exact .inr hfailed
    · obtain rfl := List.mem_singleton.1 hj
      exact .inl ⟨value, hstatus, List.getElem?_set_self hlt⟩
  · rw [List.filterMap_append, List.map_append]
    show σ.errors.map some = (handled.filterMap σ.reason?).map Reason.toError ++
      ([i].filterMap σ.reason?).map Reason.toError
    rw [h.errors_eq, List.filterMap_cons, hnone]
    exact (List.append_nil _).symm

/-- An error is collected. -/
theorem reject {i : ℕ} {reason : Reason E} {error : TaskError E}
    (h : Handed tasks opts (i :: inHand) handled σ) (hstatus : σ.status i = .rejected reason)
    (herror : reason.toError = some error) :
    Handed tasks opts inHand (handled ++ [i]) { σ with errors := σ.errors ++ [error] } := by
  have hreason : σ.reason? i = some reason := by
    unfold Parallel.reason?
    rw [hstatus]
  refine ⟨h.called_eq, h.le_length, h.perm_handle, h.notCalled,
    fun j hj => h.inHand_called j (List.mem_cons_of_mem _ hj), fun j hj => ?_,
    h.results_length, ?_, h.collected⟩
  · rcases List.mem_append.1 hj with hj | hj
    · exact h.isHandled j hj
    · obtain rfl := List.mem_singleton.1 hj
      exact .inr ⟨reason, hstatus⟩
  · show (σ.errors ++ [error]).map some = ((handled ++ [i]).filterMap σ.reason?).map Reason.toError
    rw [List.map_append, h.errors_eq, List.filterMap_append, List.map_append, List.filterMap_cons,
      hreason]
    simp [herror]

/-- A task that has not settled is in hand. -/
theorem mem_of_pending {i : ℕ} (h : Handed tasks opts inHand handled σ)
    (hstatus : σ.status i = .pending) : i ∈ inHand := by
  have hcalled : i < σ.currentIndex := by
    by_contra hge
    exact nomatch hstatus.symm.trans (h.notCalled i (not_lt.1 hge))
  rcases h.mem_or_mem hcalled with hmem | hmem
  · exact hmem
  · rcases h.isHandled i hmem with ⟨value, hvalue, -⟩ | ⟨reason, hreason⟩
    · exact nomatch hstatus.symm.trans hvalue
    · exact nomatch hstatus.symm.trans hreason

/-- A task in hand settles. -/
theorem settle {i : ℕ} {outcome : Except (Reason E) V} (h : Handed tasks opts inHand handled σ)
    (hstatus : σ.status i = .pending)
    (hcollected : ∀ reason, outcome = .error reason → Collected opts reason) :
    Handed tasks opts inHand handled (σ.settle i outcome) := by
  have hcalled : i < σ.currentIndex :=
    h.lt_of_mem (List.mem_append_left _ (h.mem_of_pending hstatus))
  have hold : ∀ j, j ≠ i → (σ.settle i outcome).status j = σ.status j :=
    fun j hj => Function.update_of_ne hj ..
  have hhandled : ∀ j ∈ handled, j ≠ i := by
    rintro j hj rfl
    rcases h.isHandled j hj with ⟨value, hvalue, -⟩ | ⟨reason, hreason⟩
    · exact nomatch hstatus.symm.trans hvalue
    · exact nomatch hstatus.symm.trans hreason
  refine ⟨h.called_eq, h.le_length, h.perm, fun j hj => ?_, fun j hj => ?_, fun j hj => ?_,
    h.results_length, ?_, fun j reason hreason => ?_⟩
  · have hle : σ.currentIndex ≤ j := hj
    exact (hold j (by omega)).trans (h.notCalled j hj)
  · by_cases hji : j = i
    · subst hji
      show Function.update σ.status j _ j ≠ .notCalled
      rw [Function.update_self]
      cases outcome <;> exact nofun
    · rw [hold j hji]
      exact h.inHand_called j hj
  · unfold Parallel.Handled
    rw [hold j (hhandled j hj)]
    exact h.isHandled j hj
  · rw [show (σ.settle i outcome).errors = σ.errors from rfl, h.errors_eq]
    congr 1
    exact List.filterMap_congr fun j hj =>
      (Parallel.reason?_congr (hold j (hhandled j hj))).symm
  · by_cases hji : j = i
    · subst hji
      cases outcome with
      | ok value =>
        have hself : (σ.settle j (.ok value)).status j = .fulfilled value := Function.update_self ..
        exact nomatch hself.symm.trans hreason
      | error reason' =>
        have hself : (σ.settle j (.error reason')).status j = .rejected reason' :=
          Function.update_self ..
        obtain rfl := TaskStatus.rejected.inj (hself.symm.trans hreason)
        exact hcollected reason' rfl
    · exact h.collected j reason ((hold j hji).symm.trans hreason)

theorem congr_workers (h : Handed tasks opts inHand handled σ) (workers : List (Worker E)) :
    Handed tasks opts inHand handled { σ with workers := workers } :=
  ⟨h.called_eq, h.le_length, h.perm, h.notCalled, h.inHand_called, h.isHandled, h.results_length,
    h.errors_eq, h.collected⟩

end Handed

/-! ## One worker -/

/-- What a worker makes of the state while it draws tasks: it stops at a task, or when
there are no more. -/
structure Drawn (tasks : List (Call E)) (opts : ParallelOptions) (inHand : List ℕ)
    (σ σ' : Parallel V E) (worker : Worker E) : Prop where
  handed : ∃ handled, Handed tasks opts (worker.index?.toList ++ inHand) handled σ'
  alive : ∀ error, worker ≠ .rejected error
  finished : worker = .finished → tasks.length ≤ σ'.currentIndex
  drawn : 2 * (tasks.length - σ'.currentIndex) + 2 * worker.index?.toList.length ≤
    2 * (tasks.length - σ.currentIndex)
  status : ∀ i < σ.currentIndex, σ'.status i = σ.status i
  workers : σ'.workers = σ.workers
  failure : σ'.failure = σ.failure
  promise : σ'.promise = σ.promise

theorem drawn_loop {inHand handled : List ℕ}
    (hcalls : ∀ reason, Call.throws reason ∈ tasks → Collected opts reason) (fuel : ℕ)
    {σ : Parallel V E} (h : Handed tasks opts inHand handled σ)
    (hfuel : tasks.length - σ.currentIndex ≤ fuel) :
    Drawn tasks opts inHand σ (Parallel.loop tasks opts fuel σ).1 (Parallel.loop tasks opts fuel σ).2 := by
  have hstop : tasks.length ≤ σ.currentIndex → Drawn tasks opts inHand σ σ .finished := fun hdone =>
    ⟨⟨handled, h⟩, (by simp), fun _ => hdone, le_rfl, fun _ _ => rfl, rfl, rfl, rfl⟩
  induction fuel generalizing σ handled with
  | zero => exact hstop (by omega)
  | succ fuel ih =>
    unfold Parallel.loop
    cases hcall : tasks[σ.currentIndex]? with
    | none => exact hstop (List.getElem?_eq_none_iff.1 hcall)
    | some call =>
      obtain ⟨hlt, hget⟩ := List.getElem?_eq_some_iff.1 hcall
      cases call with
      | returns =>
        refine ⟨⟨handled, h.callNext hlt (by simp) (by simp)⟩, (by simp), (by simp), ?_, fun i hi => ?_, rfl, rfl, rfl⟩
        · show 2 * (tasks.length - (σ.currentIndex + 1)) + 2 ≤ _
          omega
        · exact Function.update_of_ne hi.ne ..
      | throws reason =>
        -- the error is collected, and the loop goes on
        have hmem : Call.throws reason ∈ tasks := hget ▸ List.getElem_mem hlt
        obtain ⟨error, herror, hcaught⟩ :=
          (σ.callNext (.rejected reason)).caught_of_collected (hcalls reason hmem)
        dsimp only
        rw [hcaught]
        have hfailed : TaskStatus.rejected reason ≠ (.notCalled : TaskStatus V E) := by simp
        have hnext := (h.callNext hlt hfailed fun reason' heq =>
          TaskStatus.rejected.inj heq ▸ hcalls reason hmem).reject (Function.update_self ..) herror
        have hrest := ih hnext (by
          show tasks.length - (σ.currentIndex + 1) ≤ fuel
          omega) (fun hdone => ⟨⟨_, hnext⟩, (by simp), fun _ => hdone, le_rfl, fun _ _ => rfl, rfl, rfl, rfl⟩)
        refine ⟨hrest.handed, hrest.alive, hrest.finished, hrest.drawn.trans ?_, fun i hi => ?_,
          hrest.workers, hrest.failure, hrest.promise⟩
        · show 2 * (tasks.length - (σ.currentIndex + 1)) ≤ _
          omega
        · refine (hrest.status i ?_).trans (Function.update_of_ne hi.ne ..)
          show i < σ.currentIndex + 1
          omega

theorem drawn_work {inHand handled : List ℕ}
    (hcalls : ∀ reason, Call.throws reason ∈ tasks → Collected opts reason) {σ : Parallel V E}
    (h : Handed tasks opts inHand handled σ) :
    Drawn tasks opts inHand σ (σ.work tasks opts).1 (σ.work tasks opts).2 :=
  drawn_loop hcalls _ h le_rfl

/-- A worker that resumes puts away what it has waited for, and draws the next tasks. -/
theorem drawn_resume {inHand handled : List ℕ} {σ : Parallel V E} {i : ℕ}
    {outcome : Except (Reason E) V}
    (hcalls : ∀ reason, Call.throws reason ∈ tasks → Collected opts reason)
    (h : Handed tasks opts (i :: inHand) handled σ)
    (hstatus : (σ.status i).outcome? = some outcome) :
    Drawn tasks opts inHand σ (σ.resume tasks opts i outcome).1 (σ.resume tasks opts i outcome).2 := by
  cases outcome with
  | ok value =>
    have hvalue : σ.status i = .fulfilled value := by
      cases hi : σ.status i <;> rw [hi] at hstatus <;> simp_all [TaskStatus.outcome?]
    obtain ⟨hhanded, halive, hfinished, hdrawn, hold, hworkers, hfailure, hpromise⟩ :=
      drawn_work hcalls (h.fulfil hvalue)
    exact ⟨hhanded, halive, hfinished, hdrawn, hold, hworkers, hfailure, hpromise⟩
  | error reason =>
    have hreason : σ.status i = .rejected reason := by
      cases hi : σ.status i <;> rw [hi] at hstatus <;> simp_all [TaskStatus.outcome?]
    obtain ⟨error, herror, hcaught⟩ := σ.caught_of_collected (h.collected i reason hreason)
    obtain ⟨hhanded, halive, hfinished, hdrawn, hold, hworkers, hfailure, hpromise⟩ :=
      drawn_work hcalls (h.reject hreason herror)
    unfold Parallel.resume
    dsimp only
    rw [hcaught]
    exact ⟨hhanded, halive, hfinished, hdrawn, hold, hworkers, hfailure, hpromise⟩

/-! ## The workers -/

/-- The tasks in the hands of workers. -/
def Parallel.inHand (σ : Parallel V E) : List ℕ := σ.workers.filterMap Worker.index?

theorem Parallel.promise_conclude (σ : Parallel V E) (tasks : List (Call E))
    (opts : ParallelOptions) : (σ.conclude tasks opts).promise ≠ .pending := by
  unfold conclude
  dsimp only
  split_ifs
  · cases σ.failure <;> exact nofun
  · exact nofun
  · exact nofun

/-- What holds of a call whose workers are not stopped by an error. -/
structure Scheduled (tasks : List (Call E)) (opts : ParallelOptions) (σ : Parallel V E) : Prop where
  handed : ∃ handled, Handed tasks opts σ.inHand handled σ
  alive : ∀ error, Worker.rejected error ∉ σ.workers
  finished : Worker.finished ∈ σ.workers → tasks.length ≤ σ.currentIndex
  length_le : σ.workers.length ≤ Parallel.width tasks opts
  noFailure : σ.failure = none
  concluded : σ.promise ≠ .pending → σ.workers.length = Parallel.width tasks opts ∧
    σ.inHand = [] ∧ σ.promise = (σ.conclude tasks opts).promise

theorem Parallel.noteFailure_of_alive {σ : Parallel V E} {worker : Worker E}
    (h : ∀ error, worker ≠ .rejected error) : σ.noteFailure worker = σ := by
  unfold noteFailure
  cases worker with
  | rejected error => exact absurd rfl (h error)
  | awaiting index => rfl
  | finished => rfl

/-- What is in hand with another worker. -/
theorem inHand_concat (workers : List (Worker E)) (worker : Worker E) :
    ((workers ++ [worker]).filterMap Worker.index?).Perm
      (worker.index?.toList ++ workers.filterMap Worker.index?) := by
  rw [List.filterMap_append]
  refine List.perm_append_comm.trans (List.Perm.append_right _ (.of_eq ?_))
  rw [List.filterMap_cons]
  cases worker.index? <;> rfl

/-- What is in hand, when a worker that awaited a task goes on to something else. -/
theorem inHand_set {workers : List (Worker E)} {w i : ℕ} (h : workers[w]? = some (.awaiting i)) :
    ∃ others, (workers.filterMap Worker.index?).Perm (i :: others) ∧
      ∀ worker : Worker E, ((workers.set w worker).filterMap Worker.index?).Perm
        (worker.index?.toList ++ others) := by
  induction workers generalizing w with
  | nil => exact nomatch h
  | cons first workers ih =>
    cases w with
    | zero =>
      obtain rfl : first = .awaiting i := Option.some.inj h
      refine ⟨workers.filterMap Worker.index?, .refl _, fun worker => ?_⟩
      rw [List.set_cons_zero, List.filterMap_cons]
      cases worker.index? <;> exact .refl _
    | succ w =>
      obtain ⟨others, hperm, hset⟩ := ih h
      refine ⟨first.index?.toList ++ others, ?_, fun worker => ?_⟩
      · rw [List.filterMap_cons]
        cases first.index? with
        | none => exact hperm
        | some j => exact (hperm.cons j).trans (.swap ..)
      · rw [List.set_cons_succ, List.filterMap_cons]
        cases first.index? with
        | none => exact hset worker
        | some j =>
          refine ((hset worker).cons j).trans ?_
          exact List.perm_middle.symm

namespace Scheduled

variable {σ σ' : Parallel V E} {l : ParallelLabel V E}

theorem start (tasks : List (Call E)) (opts : ParallelOptions) :
    Scheduled tasks opts (Parallel.start (V := V) tasks) where
  handed := ⟨[], .start tasks opts⟩
  alive := nofun
  finished := nofun
  length_le := Nat.zero_le _
  noFailure := rfl
  concluded h := absurd rfl h

/-- A worker goes on in the state of another one's making. -/
theorem of_drawn {inHand : List ℕ} {worker : Worker E} (h : Scheduled tasks opts σ)
    (hpending : σ.promise = .pending) (hdrawn : Drawn tasks opts inHand σ σ' worker)
    {workers : List (Worker E)} (hmem : ∀ w ∈ workers, w ∈ σ.workers ∨ w = worker)
    (hlength : workers.length ≤ Parallel.width tasks opts)
    (hperm : (workers.filterMap Worker.index?).Perm (worker.index?.toList ++ inHand)) :
    Scheduled tasks opts ({ σ' with workers := workers }.noteFailure worker) := by
  rw [Parallel.noteFailure_of_alive hdrawn.alive]
  obtain ⟨handled, hhanded⟩ := hdrawn.handed
  refine ⟨⟨handled, (hhanded.congr_workers workers).of_perm hperm⟩, fun error herror => ?_,
    fun hfinished => ?_, hlength, hdrawn.failure.trans h.noFailure, fun hdone => ?_⟩
  · rcases hmem _ herror with hold | hnew
    · exact h.alive error hold
    · exact hdrawn.alive error hnew.symm
  · rcases hmem _ hfinished with hold | hnew
    · have hdone := h.finished hold
      have hmore := hdrawn.drawn
      show tasks.length ≤ σ'.currentIndex
      omega
    · exact hdrawn.finished hnew.symm
  · exact absurd (hdrawn.promise.trans hpending) hdone

/-- **One step.** -/
theorem step (h : Scheduled tasks opts σ)
    (hcalls : ∀ reason, Call.throws reason ∈ tasks → Collected opts reason)
    (hcollected : ∀ i reason, l = .settle i (.error reason) → Collected opts reason)
    (hs : ParallelStep tasks opts σ l σ') : Scheduled tasks opts σ' := by
  obtain ⟨handled, hhanded⟩ := h.handed
  cases hs with
  | spawn hlt =>
    have hpending : σ.promise = .pending := by
      by_contra hdone
      exact hlt.ne (h.concluded hdone).1
    have hdrawn := drawn_work hcalls hhanded
    unfold Parallel.spawn
    dsimp only
    rw [hdrawn.workers]
    refine h.of_drawn hpending hdrawn (fun w hw => ?_) ?_ ?_
    · rcases List.mem_append.1 hw with hw | hw
      · exact .inl hw
      · exact .inr (List.mem_singleton.1 hw)
    · rw [List.length_append, List.length_singleton]
      exact hlt
    · exact inHand_concat σ.workers _
  | @settle index outcome hstatus =>
    have hsettled : Handed tasks opts σ.inHand handled (σ.settle index outcome) :=
      hhanded.settle hstatus fun reason heq => hcollected index reason (by rw [heq])
    exact ⟨⟨handled, hsettled⟩, h.alive, h.finished, h.length_le, h.noFailure, h.concluded⟩
  | @deliver w index outcome hlength hworker hstatus =>
    obtain ⟨others, hperm, hset⟩ := inHand_set hworker
    have hpending : σ.promise = .pending := by
      by_contra hdone
      have hnone := (h.concluded hdone).2.1
      unfold Parallel.inHand at hnone
      rw [hnone] at hperm
      exact nomatch hperm.nil_eq
    have hdrawn := drawn_resume hcalls (hhanded.of_perm hperm.symm) hstatus
    unfold Parallel.deliver
    dsimp only
    rw [hdrawn.workers]
    refine h.of_drawn hpending hdrawn (fun w hw => ?_) ?_ (hset _)
    · exact List.mem_or_eq_of_mem_set hw
    · rw [List.length_set]
      exact h.length_le
  | conclude _ hjoined =>
    have hnone : σ.inHand = [] := by
      refine List.filterMap_eq_nil_iff.2 fun worker hworker => ?_
      obtain ⟨-, hover⟩ := hjoined
      split_ifs at hover
      · rcases hover with hfailed | hall
        · exact absurd h.noFailure hfailed
        · rw [hall worker hworker]
          rfl
      · cases worker with
        | awaiting index => exact absurd rfl (hover _ hworker index)
        | finished => rfl
        | rejected error => rfl
    exact ⟨h.handed.imp fun _ hhanded => ⟨hhanded.called_eq, hhanded.le_length, hhanded.perm,
      hhanded.notCalled, hhanded.inHand_called, hhanded.isHandled, hhanded.results_length,
      hhanded.errors_eq, hhanded.collected⟩, h.alive, h.finished, h.length_le, h.noFailure,
      fun _ => ⟨hjoined.1, hnone, rfl⟩⟩

/-- **A run** in which no error of a task stops a worker. -/
theorem of_reach (hcalls : ∀ reason, Call.throws reason ∈ tasks → Collected opts reason)
    (hreach : Reach (ParallelStep tasks opts)
      (fun _ l => ∀ i reason, l = .settle i (.error reason) → Collected opts reason)
      (.start tasks) σ) : Scheduled tasks opts σ := by
  refine hreach.invariant (.start tasks opts) ?_
  intro σ l σ' hbefore hcollected hs
  exact hbefore.step hcalls hcollected hs

/-! ### What a call comes to -/

/-- Once the promise has settled, every task has been handled. -/
theorem handled_of_settled (h : Scheduled tasks opts σ) (hc : 1 ≤ opts.concurrency)
    (hdone : σ.promise ≠ .pending) :
    ∃ handled, Handed tasks opts [] handled σ ∧ σ.currentIndex = tasks.length := by
  obtain ⟨handled, hhanded⟩ := h.handed
  obtain ⟨hlength, hnone, -⟩ := h.concluded hdone
  rw [hnone] at hhanded
  refine ⟨handled, hhanded, hhanded.le_length.antisymm ?_⟩
  -- a worker that is there has found no more tasks
  cases hworkers : σ.workers with
  | nil =>
    rw [hworkers, List.length_nil] at hlength
    unfold Parallel.width at hlength
    omega
  | cons worker workers =>
    have hmem : worker ∈ σ.workers := by
      rw [hworkers]
      exact List.mem_cons_self ..
    cases worker with
    | awaiting index =>
      exact nomatch (List.filterMap_eq_nil_iff.1 hnone) _ hmem
    | finished => exact h.finished hmem
    | rejected error => exact absurd hmem (h.alive error)

/-- A call that has not settled waits for a task, or goes on by itself. -/
theorem progress (h : Scheduled tasks opts σ) (hpending : σ.promise = .pending) :
    (∃ i, σ.status i = .pending) ∨
      ∃ l σ', (∀ i outcome, l ≠ .settle i outcome) ∧ ParallelStep tasks opts σ l σ' := by
  by_cases hlt : σ.workers.length < Parallel.width tasks opts
  case pos => exact .inr ⟨.spawn, _, nofun, .spawn hlt⟩
  have hlength : σ.workers.length = Parallel.width tasks opts := h.length_le.antisymm (not_lt.1 hlt)
  by_cases hwaiting : ∃ index, Worker.awaiting index ∈ σ.workers
  · obtain ⟨index, hmem⟩ := hwaiting
    obtain ⟨w, hw⟩ := List.getElem?_of_mem hmem
    obtain ⟨handled, hhanded⟩ := h.handed
    have hcalled := hhanded.inHand_called index (List.mem_filterMap.2 ⟨_, hmem, rfl⟩)
    cases hstatus : σ.status index with
    | notCalled => exact absurd hstatus hcalled
    | pending => exact .inl ⟨index, hstatus⟩
    | fulfilled value => exact .inr ⟨.deliver w, _, nofun, .deliver hlength hw (by rw [hstatus]; rfl)⟩
    | rejected reason => exact .inr ⟨.deliver w, _, nofun, .deliver hlength hw (by rw [hstatus]; rfl)⟩
  · have hnone : ∀ worker ∈ σ.workers, ∀ index, worker ≠ .awaiting index := by
      rintro worker hworker index rfl
      exact hwaiting ⟨index, hworker⟩
    refine .inr ⟨.conclude, _, nofun, .conclude hpending ⟨hlength, ?_⟩⟩
    split_ifs
    · refine .inr fun worker hworker => ?_
      cases worker with
      | awaiting index => exact absurd rfl (hnone _ hworker index)
      | finished => rfl
      | rejected error => exact absurd hworker (h.alive error)
    · exact hnone

end Scheduled

/-! ## How long a call takes -/

/-- The task has been called, and has not settled. -/
def TaskStatus.isPending : TaskStatus V E → Bool
  | pending => true
  | _ => false

/-- At most so many steps are left. -/
def Parallel.remaining (tasks : List (Call E)) (opts : ParallelOptions) (σ : Parallel V E) : ℕ :=
  2 * (tasks.length - σ.currentIndex) + σ.inHand.length +
    σ.inHand.countP (fun i => (σ.status i).isPending) +
    (Parallel.width tasks opts - σ.workers.length) +
    (match σ.promise with | .pending => 1 | _ => 0)

namespace Scheduled

variable {σ σ' : Parallel V E} {l : ParallelLabel V E}

/-- What a worker draws was left before. -/
theorem remaining_of_drawn {inHand : List ℕ} {worker : Worker E}
    (hdrawn : Drawn tasks opts inHand σ σ' worker) (hcalled : ∀ i ∈ inHand, i < σ.currentIndex)
    {workers : List (Worker E)}
    (hperm : (workers.filterMap Worker.index?).Perm (worker.index?.toList ++ inHand)) :
    ({ σ' with workers := workers }.noteFailure worker).remaining tasks opts ≤
      2 * (tasks.length - σ.currentIndex) + inHand.length +
        inHand.countP (fun i => (σ.status i).isPending) +
        (Parallel.width tasks opts - workers.length) +
        (match σ.promise with | .pending => 1 | _ => 0) := by
  rw [Parallel.noteFailure_of_alive hdrawn.alive]
  have hcount : inHand.countP (fun i => (σ'.status i).isPending) =
      inHand.countP (fun i => (σ.status i).isPending) :=
    List.countP_congr fun i hi => by rw [hdrawn.status i (hcalled i hi)]
  have hnew := List.countP_le_length (p := fun i => (σ'.status i).isPending)
    (l := worker.index?.toList)
  have hlength := hperm.length_eq
  have hpending := hperm.countP_eq (fun i => (σ'.status i).isPending)
  rw [List.length_append] at hlength
  rw [List.countP_append, hcount] at hpending
  have hdrawn' := hdrawn.drawn
  unfold Parallel.remaining Parallel.inHand
  dsimp only
  rw [hdrawn.promise]
  omega

/-- Every step is one less to take. -/
theorem remaining_lt (h : Scheduled tasks opts σ)
    (hcalls : ∀ reason, Call.throws reason ∈ tasks → Collected opts reason)
    (hs : ParallelStep tasks opts σ l σ') :
    σ'.remaining tasks opts < σ.remaining tasks opts := by
  obtain ⟨handled, hhanded⟩ := h.handed
  have hcalled : ∀ i ∈ σ.inHand, i < σ.currentIndex := fun i hi =>
    hhanded.lt_of_mem (List.mem_append_left _ hi)
  cases hs with
  | spawn hlt =>
    have hdrawn := drawn_work hcalls hhanded
    have hle := remaining_of_drawn hdrawn hcalled (inHand_concat σ.workers _)
    rw [List.length_append, List.length_singleton] at hle
    unfold Parallel.spawn
    dsimp only
    rw [hdrawn.workers]
    refine hle.trans_lt ?_
    unfold Parallel.remaining
    omega
  | @settle index outcome hstatus =>
    have hmem := hhanded.mem_of_pending hstatus
    have hperm := List.perm_cons_erase hmem
    have hnodup : σ.inHand.Nodup := (hhanded.perm.nodup_iff.2 List.nodup_range).of_append_left
    have hothers : (σ.inHand.erase index).countP
        (fun i => ((σ.settle index outcome).status i).isPending) =
        (σ.inHand.erase index).countP (fun i => (σ.status i).isPending) := by
      refine List.countP_congr fun i hi => ?_
      have hne : i ≠ index := fun heq => hnodup.not_mem_erase (heq ▸ hi)
      rw [show (σ.settle index outcome).status i = σ.status i from Function.update_of_ne hne ..]
    have hself : ((σ.settle index outcome).status index).isPending = false := by
      rw [show (σ.settle index outcome).status index = _ from Function.update_self ..]
      cases outcome <;> rfl
    have hbefore := hperm.countP_eq (fun i => (σ.status i).isPending)
    have hafter := hperm.countP_eq (fun i => ((σ.settle index outcome).status i).isPending)
    rw [List.countP_cons, hstatus] at hbefore
    rw [List.countP_cons, hself, hothers] at hafter
    show 2 * (tasks.length - σ.currentIndex) + σ.inHand.length +
        σ.inHand.countP (fun i => ((σ.settle index outcome).status i).isPending) +
        (Parallel.width tasks opts - σ.workers.length) +
        (match σ.promise with | .pending => 1 | _ => 0) < _
    rw [hafter]
    unfold Parallel.remaining
    rw [hbefore]
    simp [TaskStatus.isPending]
  | @deliver w index outcome hlength hworker hstatus =>
    obtain ⟨others, hperm, hset⟩ := inHand_set hworker
    have hdrawn := drawn_resume hcalls (hhanded.of_perm hperm.symm) hstatus
    have hle := remaining_of_drawn hdrawn (fun i hi => hcalled i (hperm.symm.subset
      (List.mem_cons_of_mem _ hi))) (hset _)
    rw [List.length_set] at hle
    unfold Parallel.deliver
    dsimp only
    rw [hdrawn.workers]
    refine hle.trans_lt ?_
    have hcount := hperm.countP_eq (fun i => (σ.status i).isPending)
    have hmore := hperm.length_eq
    rw [List.countP_cons] at hcount
    rw [List.length_cons] at hmore
    unfold Parallel.remaining Parallel.inHand
    omega
  | conclude hpending _ =>
    have hzero : (match (σ.conclude tasks opts).promise with | .pending => 1 | _ => 0) = 0 := by
      have hsettled := σ.promise_conclude tasks opts
      cases hpromise : (σ.conclude tasks opts).promise with
      | pending => exact absurd hpromise hsettled
      | resolved results => rfl
      | rejected error => rfl
      | aggregateError errors message => rfl
    unfold Parallel.remaining
    rw [hzero, hpending]
    exact Nat.lt_succ_self _

end Scheduled

/-! ## A bounded scheduler -/

/-- What the tasks have failed with, in the order of the list. -/
def Parallel.failures (tasks : List (Call E)) (σ : Parallel V E) : List (Reason E) :=
  (List.range tasks.length).filterMap σ.reason?

/-- What a call of `parallel` is for, as far as it has come. -/
structure BoundedScheduler (tasks : List (Call E)) (opts : ParallelOptions)
    (steps : List (Parallel V E × ParallelLabel V E × Parallel V E)) (σ : Parallel V E) : Prop where
  /-- A task is called no more than once. -/
  called_once : σ.called.Nodup ∧ ∀ i, i ∈ σ.called ↔ σ.status i ≠ .notCalled
  /-- No more than `concurrency` tasks have been called and not settled. -/
  inFlight_le : (List.range tasks.length).countP (fun i => (σ.status i).isPending) ≤
    opts.concurrency
  /-- The promise settles once all tasks have. -/
  complete : σ.promise ≠ .pending → ∀ i < tasks.length,
    i ∈ σ.called ∧ ∃ outcome, (σ.status i).outcome? = some outcome
  /-- Without failures, it resolves to the values of the tasks. -/
  resolves : σ.promise ≠ .pending → σ.failures tasks = [] →
    ∃ results, σ.promise = .resolved results ∧ results.length = tasks.length ∧
      ∀ i < tasks.length, ∃ value, σ.status i = .fulfilled value ∧ results[i]? = some (some value)
  /-- With failures, it rejects with the errors of them all. -/
  rejects : σ.promise ≠ .pending → σ.failures tasks ≠ [] →
    ∃ errors, σ.promise = .aggregateError errors
        s!"{(σ.failures tasks).length} of {tasks.length} tasks failed" ∧
      (errors.map some).Perm ((σ.failures tasks).map Reason.toError)
  /-- Until then it waits for nothing but tasks. -/
  progress : σ.promise = .pending → (∃ i, σ.status i = .pending) ∨
    ∃ l σ', (∀ i outcome, l ≠ .settle i outcome) ∧ ParallelStep tasks opts σ l σ'
  /-- It comes to an end. -/
  finite : steps.length ≤ 3 * tasks.length + 1

namespace Scheduled

variable {σ : Parallel V E}

theorem inFlight_le (h : Scheduled tasks opts σ) :
    (List.range tasks.length).countP (fun i => (σ.status i).isPending) ≤ opts.concurrency := by
  obtain ⟨handled, hhanded⟩ := h.handed
  have hsubset : (List.range tasks.length).filter (fun i => (σ.status i).isPending) ⊆ σ.inHand := by
    intro i hi
    have hpending := (List.mem_filter.1 hi).2
    refine hhanded.mem_of_pending ?_
    cases hstatus : σ.status i with
    | pending => rfl
    | _ => rw [hstatus] at hpending; exact nomatch hpending
  have hle := (List.nodup_range.filter _).subperm hsubset |>.length_le
  rw [List.countP_eq_length_filter]
  calc _ ≤ σ.inHand.length := hle
    _ ≤ σ.workers.length := List.length_filterMap_le ..
    _ ≤ Parallel.width tasks opts := h.length_le
    _ ≤ opts.concurrency := min_le_left ..

/-- The errors of a call that has settled are those of its tasks. -/
theorem errors_perm {handled : List ℕ} (h : Handed tasks opts [] handled σ)
    (hall : σ.currentIndex = tasks.length) :
    (σ.errors.map some).Perm ((σ.failures tasks).map Reason.toError) := by
  rw [h.errors_eq]
  have hperm : handled.Perm (List.range tasks.length) := hall ▸ h.perm
  exact (hperm.filterMap _).map _

theorem mem_failures {reason : Reason E} (h : reason ∈ σ.failures tasks) :
    ∃ i < tasks.length, σ.status i = .rejected reason := by
  obtain ⟨i, hi, hreason⟩ := List.mem_filterMap.1 h
  refine ⟨i, List.mem_range.1 hi, ?_⟩
  unfold Parallel.reason? at hreason
  cases hstatus : σ.status i with
  | rejected reason' =>
    rw [hstatus] at hreason
    rw [Option.some.inj hreason]
  | _ => rw [hstatus] at hreason; exact nomatch hreason

theorem resolves (h : Scheduled tasks opts σ) (hc : 1 ≤ opts.concurrency)
    (hdone : σ.promise ≠ .pending) (hnone : σ.failures tasks = []) :
    ∃ results, σ.promise = .resolved results ∧ results.length = tasks.length ∧
      ∀ i < tasks.length, ∃ value, σ.status i = .fulfilled value ∧
        results[i]? = some (some value) := by
  obtain ⟨handled, hhanded, hall⟩ := h.handled_of_settled hc hdone
  have herrors : σ.errors = [] := by
    have hperm := errors_perm hhanded hall
    rw [hnone] at hperm
    exact List.map_eq_nil_iff.1 hperm.eq_nil
  refine ⟨σ.results, ?_, hhanded.results_length, fun i hi => ?_⟩
  · rw [(h.concluded hdone).2.2]
    unfold Parallel.conclude
    dsimp only
    rw [h.noFailure, herrors]
    split_ifs <;> first | rfl | simp_all
  · rcases hhanded.mem_or_mem (hall ▸ hi) with hmem | hmem
    · exact nomatch hmem
    · rcases hhanded.isHandled i hmem with hvalue | ⟨reason, hreason⟩
      · exact hvalue
      · have hfailed : reason ∈ σ.failures tasks := by
          refine List.mem_filterMap.2 ⟨i, List.mem_range.2 hi, ?_⟩
          unfold Parallel.reason?
          rw [hreason]
        rw [hnone] at hfailed
        exact nomatch hfailed

theorem rejects (h : Scheduled tasks opts σ) (hc : 1 ≤ opts.concurrency)
    (hdone : σ.promise ≠ .pending) (hsome : σ.failures tasks ≠ []) :
    ∃ errors, σ.promise = .aggregateError errors
        s!"{(σ.failures tasks).length} of {tasks.length} tasks failed" ∧
      (errors.map some).Perm ((σ.failures tasks).map Reason.toError) := by
  obtain ⟨handled, hhanded, hall⟩ := h.handled_of_settled hc hdone
  have hperm := errors_perm hhanded hall
  have hlength : σ.errors.length = (σ.failures tasks).length := by
    simpa using hperm.length_eq
  obtain ⟨reason, hreason⟩ := List.exists_mem_of_ne_nil _ hsome
  obtain ⟨i, -, hstatus⟩ := mem_failures hreason
  have hslow := (hhanded.collected i reason hstatus).1
  refine ⟨σ.errors, ?_, hperm⟩
  rw [(h.concluded hdone).2.2]
  unfold Parallel.conclude
  dsimp only
  rw [hslow, if_neg Bool.false_ne_true, hlength, if_pos (List.length_pos_of_ne_nil hsome)]

end Scheduled

/-- **`parallel` is a bounded scheduler** as long as every error of a task is collected. -/
theorem boundedScheduler {options : PartialOptions} {σ : Parallel V E}
    {steps : List (Parallel V E × ParallelLabel V E × Parallel V E)}
    (hc : 1 ≤ options.withDefaults.concurrency)
    (hcalls : ∀ reason, Call.throws reason ∈ tasks → Collected options.withDefaults reason)
    (hrun : Run (ParallelStep tasks options.withDefaults)
      (fun _ l => ∀ i reason, l = .settle i (.error reason) →
        Collected options.withDefaults reason) (.start tasks) steps σ) :
    BoundedScheduler tasks options.withDefaults steps σ := by
  have h := Scheduled.of_reach hcalls hrun.reach
  obtain ⟨handled, hhanded⟩ := h.handed
  refine ⟨⟨?_, fun i => ?_⟩, h.inFlight_le, fun hdone => ?_, h.resolves hc, h.rejects hc,
    h.progress, ?_⟩
  · rw [hhanded.called_eq]
    exact List.nodup_range
  · rw [hhanded.called_eq, List.mem_range]
    constructor
    · intro hlt
      rcases hhanded.mem_or_mem hlt with hmem | hmem
      · exact hhanded.inHand_called i hmem
      · rcases hhanded.isHandled i hmem with ⟨value, hvalue, -⟩ | ⟨reason, hreason⟩
        · rw [hvalue]
          exact nofun
        · rw [hreason]
          exact nofun
    · intro hcalled
      by_contra hge
      exact hcalled (hhanded.notCalled i (not_lt.1 hge))
  · obtain ⟨handled, hhanded, hall⟩ := h.handled_of_settled hc hdone
    intro i hi
    have hlt : i < σ.currentIndex := hall ▸ hi
    refine ⟨by rw [hhanded.called_eq]; exact List.mem_range.2 hlt, ?_⟩
    rcases hhanded.mem_or_mem hlt with hmem | hmem
    · exact nomatch hmem
    · rcases hhanded.isHandled i hmem with ⟨value, hvalue, -⟩ | ⟨reason, hreason⟩
      · exact ⟨_, by rw [hvalue]; rfl⟩
      · exact ⟨_, by rw [hreason]; rfl⟩
  · have hle := hrun.length_add_le fun hreach _ hs =>
      (Scheduled.of_reach hcalls hreach).remaining_lt hcalls hs
    have hstart : (Parallel.start tasks : Parallel V E).remaining tasks options.withDefaults =
        2 * tasks.length + Parallel.width tasks options.withDefaults + 1 := rfl
    have hwidth : Parallel.width tasks options.withDefaults ≤ tasks.length := min_le_right ..
    omega

end

/-! ## One task -/

namespace OneTask

/-- A task whose call returns a promise. -/
def tasks : List (Call Unit) := [.returns]

def options : PartialOptions := { concurrency := some 1, failFast := some false }

/-- The task has been called. -/
def called : Parallel ℕ Unit := (Parallel.start tasks).spawn tasks options.withDefaults

variable (outcome : Except (Reason Unit) ℕ)

/-- It has settled. -/
def settled : Parallel ℕ Unit := called.settle 0 outcome

/-- Its worker has resumed. -/
def resumed : Parallel ℕ Unit := (settled outcome).deliver tasks options.withDefaults 0 0 outcome

def concluded : Parallel ℕ Unit := (resumed outcome).conclude tasks options.withDefaults

/-- The history. -/
def steps : List (Parallel ℕ Unit × ParallelLabel ℕ Unit × Parallel ℕ Unit) :=
  [(.start tasks, .spawn, called), (called, .settle 0 outcome, settled outcome),
    (settled outcome, .deliver 0, resumed outcome), (resumed outcome, .conclude, concluded outcome)]

theorem run_steps {ok : Parallel ℕ Unit → ParallelLabel ℕ Unit → Prop}
    (hok : ∀ p ∈ steps outcome, ok p.1 p.2.1)
    (hstatus : ((settled outcome).status 0).outcome? = some outcome)
    (hpending : (resumed outcome).promise = .pending) {worker : Worker Unit}
    (hworkers : (resumed outcome).workers = [worker]) (hstopped : worker.index? = none) :
    Run (ParallelStep tasks options.withDefaults) ok (.start tasks) (steps outcome)
      (concluded outcome) := by
  simp only [steps, List.forall_mem_cons] at hok
  obtain ⟨hspawn, hsettle, hdeliver, hconclude, -⟩ := hok
  have hjoined : (resumed outcome).Joined tasks options.withDefaults := by
    unfold Parallel.Joined
    rw [hworkers]
    refine ⟨rfl, ?_⟩
    show ∀ w ∈ [worker], ∀ index, w ≠ .awaiting index
    rintro w hw index rfl
    obtain rfl := List.mem_singleton.1 hw
    exact nomatch hstopped
  exact .next (.next (.next (.next .start hspawn (.spawn (by decide))) hsettle (.settle rfl))
    hdeliver (.deliver rfl rfl hstatus)) hconclude (.conclude hpending hjoined)

end OneTask

/-- The task fulfils its promise. -/
theorem boundedScheduler_fulfilled :
    BoundedScheduler OneTask.tasks OneTask.options.withDefaults (OneTask.steps (.ok 7))
      (OneTask.concluded (.ok 7)) := by
  refine boundedScheduler le_rfl ?_ (OneTask.run_steps (.ok 7) ?_ rfl rfl rfl rfl)
  · simp [OneTask.tasks]
  · simp [OneTask.steps]

/-- The task rejects it with a value that `String` throws on: the worker stops, and the
call resolves. -/
theorem not_boundedScheduler :
    ¬ ∀ (tasks : List (Call Unit)) (options : PartialOptions)
        (steps : List (Parallel ℕ Unit × ParallelLabel ℕ Unit × Parallel ℕ Unit))
        (σ : Parallel ℕ Unit),
        1 ≤ options.withDefaults.concurrency → options.withDefaults.failFast = false →
          Run (ParallelStep tasks options.withDefaults) Always (.start tasks) steps σ →
            BoundedScheduler tasks options.withDefaults steps σ := by
  intro h
  have hall := h OneTask.tasks OneTask.options _ _ le_rfl rfl
    (OneTask.run_steps (.error (.other none)) (fun _ _ => trivial) rfl rfl rfl rfl)
  obtain ⟨errors, hrejected, -⟩ := hall.rejects nofun (by decide +kernel)
  exact nomatch hrejected

end EnterpriseSystem.Scheduling
