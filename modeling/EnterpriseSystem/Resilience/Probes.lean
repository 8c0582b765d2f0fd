import EnterpriseSystem.Base.Run
import EnterpriseSystem.Resilience.CircuitBreaker

/-!
# Overlapping calls of a breaker

Any number of calls of `execute` at a time, which settle in any order.

* `Calls` — the breaker with the calls in progress; beside it, which half-open
  period it is in, and how many calls of this period have succeeded so far.
* `CallStep` — a call starts, a call settles, somebody reads the state.
* `DecidedByProbes` — in this step the breaker leaves its half-open state only on
  account of calls of the period.
* `decided_by_probes` — so it is in every run in which the calls that settle
  while the breaker is half-open are calls of that period.
-/

namespace EnterpriseSystem.Resilience

open Relational Calendar

/-- Where a call is. -/
inductive CallPhase where
  | notStarted
  /-- Its wrapped function runs; `startedIn` is the half-open period it started in, if
  it started in one. -/
  | running (startedIn : Option ℕ)
  | finished
  deriving DecidableEq

/-- A breaker with its calls.  `period` numbers the half-open periods, and
`probes` counts the successes in the current one of calls that started in it:
neither is anything the code has. -/
structure Calls (ι : Type) where
  breaker : CircuitBreaker
  phase : ι → CallPhase
  clock : Millis
  period : ℕ
  probes : ℕ

/-- What happens. -/
inductive CallLabel (ι : Type) where
  | start (i : ι) (now : Millis)
  | settle (i : ι) (outcome : Except Unit Unit) (now : Millis)
  | readState (now : Millis)
  deriving DecidableEq

/-- The time of it. -/
def CallLabel.time {ι : Type} : CallLabel ι → Millis
  | start _ now => now
  | settle _ _ now => now
  | readState now => now

namespace Calls

variable {ι : Type} [DecidableEq ι]

/-- A new breaker, before any call. -/
def new (ι : Type) (opts : CircuitBreakerOptions) (now : Millis) : Calls ι :=
  { breaker := .new opts, phase := fun _ => .notStarted, clock := now, period := 0, probes := 0 }

/-- The state is read, by a call or from outside: a half-open period may begin. -/
def read (σ : Calls ι) (now : Millis) : Calls ι :=
  let b := (σ.breaker.state now).2
  if σ.breaker.storedState ≠ .halfOpen ∧ b.storedState = .halfOpen then
    { σ with breaker := b, clock := now, period := σ.period + 1, probes := 0 }
  else { σ with breaker := b, clock := now }

/-- The half-open period, while there is one. -/
def currentPeriod (σ : Calls ι) : Option ℕ :=
  if σ.breaker.storedState = .halfOpen then some σ.period else none

/-- `i` is a call of the current half-open period. -/
def Probing (σ : Calls ι) (i : ι) : Prop := σ.phase i = .running (some σ.period)

instance (σ : Calls ι) (i : ι) : Decidable (σ.Probing i) :=
  inferInstanceAs (Decidable (σ.phase i = .running (some σ.period)))

/-- `i` calls `execute`. -/
def start (σ : Calls ι) (i : ι) (now : Millis) : Calls ι :=
  let admitted := (σ.breaker.enter (E := Unit) now).1.isOk
  let σ := σ.read now
  { σ with
    phase := Function.update σ.phase i
      (if admitted then .running σ.currentPeriod else .finished) }

/-- The wrapped function of `i` has settled. -/
def settle (σ : Calls ι) (i : ι) (outcome : Except Unit Unit) (now : Millis) : Calls ι :=
  { σ with
    breaker := σ.breaker.settle outcome now
    phase := Function.update σ.phase i .finished
    clock := now
    probes :=
      if σ.breaker.storedState = .halfOpen ∧ σ.Probing i ∧ outcome.isOk then σ.probes + 1
      else σ.probes }

/-- What a label does. -/
def next (σ : Calls ι) : CallLabel ι → Calls ι
  | .start i now => σ.start i now
  | .settle i outcome now => σ.settle i outcome now
  | .readState now => σ.read now

/-- A label can happen: time does not run back, a call starts once and settles
once after that. -/
def Enabled (σ : Calls ι) (l : CallLabel ι) : Prop :=
  σ.clock ≤ l.time ∧
    match l with
    | .start i _ => σ.phase i = .notStarted
    | .settle i _ _ => σ.phase i ≠ .notStarted ∧ σ.phase i ≠ .finished
    | .readState _ => True

instance (σ : Calls ι) (l : CallLabel ι) : Decidable (σ.Enabled l) := by
  unfold Enabled
  cases l <;> infer_instance

end Calls

section

variable {ι : Type} [DecidableEq ι]

/-- One step. -/
def CallStep (σ : Calls ι) (l : CallLabel ι) (σ' : Calls ι) : Prop :=
  σ.Enabled l ∧ σ' = σ.next l

/-- In this step the breaker leaves its half-open state only on account of calls
of the period: it closes after `successThreshold` of their successes, and opens
when one of them fails. -/
def DecidedByProbes (p : Calls ι × CallLabel ι × Calls ι) : Prop :=
  (p.1.breaker.storedState = .halfOpen → p.2.2.breaker.storedState = .closed →
      p.1.breaker.opts.successThreshold ≤ p.2.2.probes) ∧
    (p.1.breaker.storedState = .halfOpen → p.2.2.breaker.storedState = .opened →
      ∃ i now, p.2.1 = .settle i (.error ()) now ∧ p.1.Probing i)

/-- A call that settles while the breaker is half-open is a call of that period. -/
def OnlyProbesSettle (σ : Calls ι) : CallLabel ι → Prop
  | .settle i _ _ => σ.breaker.storedState = .halfOpen → σ.Probing i
  | _ => True

instance (σ : Calls ι) (l : CallLabel ι) : Decidable (OnlyProbesSettle σ l) := by
  unfold OnlyProbesSettle
  cases l <;> infer_instance

/-- The successes counted are those of the period; there are none outside of one. -/
structure Counted (σ : Calls ι) : Prop where
  inside : σ.breaker.storedState = .halfOpen → σ.breaker.successCount = σ.probes
  outside : σ.breaker.storedState ≠ .halfOpen → σ.breaker.successCount = 0

variable {σ σ' : Calls ι} {l : CallLabel ι}

omit [DecidableEq ι] in
/-- Reading leaves the breaker as it is, or begins a half-open period. -/
theorem Calls.read_cases (σ : Calls ι) (now : Millis) :
    (σ.read now = { σ with clock := now }) ∨
      (σ.breaker.storedState = .opened ∧
        σ.read now = { σ with
          breaker := σ.breaker.transitionTo .halfOpen, clock := now, period := σ.period + 1,
          probes := 0 }) := by
  unfold Calls.read CircuitBreaker.state
  by_cases helapsed : σ.breaker.storedState = .opened ∧ σ.breaker.nextAttemptTime ≤ now
  · right
    refine ⟨helapsed.1, ?_⟩
    rw [if_pos helapsed]
    exact if_pos ⟨by rw [helapsed.1]; exact nofun, rfl⟩
  · left
    rw [if_neg helapsed]
    exact if_neg fun h => h.1 h.2

omit [DecidableEq ι] in
theorem Counted.read (h : Counted σ) (now : Millis) : Counted (σ.read now) := by
  rcases σ.read_cases now with hr | ⟨hopen, hr⟩
  · rw [hr]
    exact ⟨h.inside, h.outside⟩
  · rw [hr]
    refine ⟨fun _ => h.outside ?_, fun hnot => absurd rfl hnot⟩
    rw [hopen]
    exact nofun

omit [DecidableEq ι] in
/-- Reading does not end a half-open period. -/
theorem Calls.storedState_read (h : σ.breaker.storedState = .halfOpen) (now : Millis) :
    (σ.read now).breaker.storedState = .halfOpen := by
  rcases σ.read_cases now with hr | ⟨hopen, hr⟩
  · rw [hr]
    exact h
  · rw [h] at hopen
    exact nomatch hopen

/-- A success in the half-open state closes the breaker, or is counted. -/
theorem onSuccess_of_halfOpen {b : CircuitBreaker} (h : b.storedState = .halfOpen) :
    (b.onSuccess.storedState = .closed ∧ b.onSuccess.successCount = 0 ∧
        b.opts.successThreshold ≤ (b.successCount + 1 : ℕ)) ∨
      (b.onSuccess.storedState = .halfOpen ∧ b.onSuccess.successCount = b.successCount + 1) := by
  unfold CircuitBreaker.onSuccess
  rw [if_pos h]
  dsimp only
  split_ifs with hclose
  · exact Or.inl ⟨rfl, rfl, hclose⟩
  · exact Or.inr ⟨h, rfl⟩

/-- A failure in the half-open state opens the breaker. -/
theorem onFailure_of_halfOpen {b : CircuitBreaker} (h : b.storedState = .halfOpen)
    (now : Millis) :
    (b.onFailure now).storedState = .opened ∧ (b.onFailure now).successCount = 0 := by
  unfold CircuitBreaker.onFailure
  rw [if_pos h]
  exact ⟨rfl, rfl⟩

/-- Outside of the half-open state no call leads into it, and none is counted. -/
theorem settle_of_not_halfOpen {b : CircuitBreaker} (h : b.storedState ≠ .halfOpen)
    (outcome : Except Unit Unit) (now : Millis) :
    (b.settle outcome now).storedState ≠ .halfOpen ∧
      (b.settle outcome now).successCount = b.successCount := by
  unfold CircuitBreaker.settle
  cases outcome with
  | ok _ =>
    show b.onSuccess.storedState ≠ .halfOpen ∧ b.onSuccess.successCount = b.successCount
    unfold CircuitBreaker.onSuccess
    rw [if_neg h]
    exact ⟨h, rfl⟩
  | error _ =>
    show (b.onFailure now).storedState ≠ .halfOpen ∧
      (b.onFailure now).successCount = b.successCount
    unfold CircuitBreaker.onFailure
    rw [if_neg h]
    dsimp only
    split_ifs
    · exact ⟨nofun, rfl⟩
    · exact ⟨h, rfl⟩

/-- A call that settles counts for the period it started in. -/
theorem Counted.settle (h : Counted σ) {i : ι} {outcome : Except Unit Unit} {now : Millis}
    (hprobe : σ.breaker.storedState = .halfOpen → σ.Probing i) :
    Counted (σ.settle i outcome now) ∧
      DecidedByProbes (σ, .settle i outcome now, σ.settle i outcome now) := by
  by_cases hhalf : σ.breaker.storedState = .halfOpen
  · have hcount := h.inside hhalf
    cases outcome with
    | ok _ =>
      have hprobes : (σ.settle i (.ok ()) now).probes = σ.probes + 1 :=
        if_pos ⟨hhalf, hprobe hhalf, rfl⟩
      have hbreaker : (σ.settle i (.ok ()) now).breaker = σ.breaker.onSuccess := rfl
      rcases onSuccess_of_halfOpen hhalf with ⟨hclosed, hzero, henough⟩ | ⟨hstays, hnext⟩
      · refine ⟨⟨fun hin => ?_, fun _ => ?_⟩, fun _ _ => ?_, fun _ hopened => ?_⟩
        · rw [hbreaker, hclosed] at hin
          exact nomatch hin
        · rw [hbreaker, hzero]
        · show σ.breaker.opts.successThreshold ≤ (σ.settle i (.ok ()) now).probes
          rw [hprobes, ← hcount]
          exact henough
        · have hopened : σ.breaker.onSuccess.storedState = .opened := hopened
          exact nomatch hclosed.symm.trans hopened
      · refine ⟨⟨fun _ => ?_, fun hnot => absurd hstays hnot⟩, fun _ hclosed => ?_,
          fun _ hopened => ?_⟩
        · rw [hbreaker, hnext, hprobes, hcount]
        · have hclosed : σ.breaker.onSuccess.storedState = .closed := hclosed
          exact nomatch hstays.symm.trans hclosed
        · have hopened : σ.breaker.onSuccess.storedState = .opened := hopened
          exact nomatch hstays.symm.trans hopened
    | error _ =>
      obtain ⟨hopened, hzero⟩ := onFailure_of_halfOpen hhalf now
      refine ⟨⟨fun hin => ?_, fun _ => hzero⟩, fun _ hclosed => ?_, fun _ _ => ?_⟩
      · have hin : (σ.breaker.onFailure now).storedState = .halfOpen := hin
        exact nomatch hopened.symm.trans hin
      · have hclosed : (σ.breaker.onFailure now).storedState = .closed := hclosed
        exact nomatch hopened.symm.trans hclosed
      · exact ⟨i, now, rfl, hprobe hhalf⟩
  · obtain ⟨hstill, hsame⟩ := settle_of_not_halfOpen hhalf outcome now
    exact ⟨⟨fun hin => absurd hin hstill, fun _ => hsame.trans (h.outside hhalf)⟩,
      fun hin => absurd hin hhalf, fun hin => absurd hin hhalf⟩

/-- **One step**, when only calls of the period settle within it. -/
theorem Counted.step (h : Counted σ) (hprobes : OnlyProbesSettle σ l) (hs : CallStep σ l σ') :
    Counted σ' ∧ DecidedByProbes (σ, l, σ') := by
  obtain ⟨-, rfl⟩ := hs
  have hstays : ∀ (now : Millis) (σ' : Calls ι), σ'.breaker = (σ.read now).breaker →
      DecidedByProbes (σ, l, σ') := by
    intro now σ' hbreaker
    refine ⟨fun hhalf hclosed => ?_, fun hhalf hopened => ?_⟩
    · have hread := Calls.storedState_read hhalf now
      rw [← hbreaker] at hread
      exact nomatch hread.symm.trans hclosed
    · have hread := Calls.storedState_read hhalf now
      rw [← hbreaker] at hread
      exact nomatch hread.symm.trans hopened
  cases l with
  | start i now =>
    have hread := h.read now
    exact ⟨⟨hread.inside, hread.outside⟩, hstays now _ rfl⟩
  | settle i outcome now => exact h.settle hprobes
  | readState now => exact ⟨h.read now, hstays now _ rfl⟩

/-- **Only probes decide recovery** in every run in which the calls that settle
while the breaker is half-open are calls of that period. -/
theorem decided_by_probes (opts : CircuitBreakerOptions) (now : Millis)
    {steps : List (Calls ι × CallLabel ι × Calls ι)}
    (hrun : Run CallStep OnlyProbesSettle (.new ι opts now) steps σ) :
    ∀ p ∈ steps, DecidedByProbes p := by
  have hnew : Counted (Calls.new ι opts now) := ⟨nofun, fun _ => rfl⟩
  suffices hall : Counted σ ∧ ∀ p ∈ steps, DecidedByProbes p from hall.2
  induction hrun with
  | start => exact ⟨hnew, by simp⟩
  | next _ hprobes hs ih =>
    obtain ⟨hcounted, hdecided⟩ := ih
    obtain ⟨hnext, hstep⟩ := hcounted.step hprobes hs
    refine ⟨hnext, fun p hp => ?_⟩
    rcases List.mem_append.1 hp with hp | hp
    · exact hdecided p hp
    · obtain rfl := List.mem_singleton.1 hp
      exact hstep

/-- A failure from outside of the period decides its end. -/
theorem not_decidedByProbes_of_settle (σ : Calls ι) (i : ι) (now : Millis)
    (hhalf : σ.breaker.storedState = .halfOpen) (hnot : ¬ σ.Probing i) :
    ¬ DecidedByProbes (σ, .settle i (.error ()) now, σ.settle i (.error ()) now) := by
  intro h
  have hopened : (σ.settle i (.error ()) now).breaker.storedState = .opened :=
    (onFailure_of_halfOpen hhalf now).1
  obtain ⟨j, now', heq, hprobing⟩ := h.2 hhalf hopened
  cases heq
  exact hnot hprobing

end

/-! ## A straggler -/

/-- A breaker that opens on the first failure, closes on the first success, and
tries again after 10 ms. -/
def sensitive : CircuitBreakerOptions :=
  { failureThreshold := 1, resetTimeoutMs := 10, successThreshold := 1 }

/-- Two calls start, the first one fails, and a third one probes. -/
def probing : List (CallLabel ℕ) :=
  [.start 0 0, .start 1 0, .settle 0 (.error ()) 1, .start 2 11]

/-- The history in which one of the calls settles after that. -/
def afterProbing (l : CallLabel ℕ) : List (Calls ℕ × CallLabel ℕ × Calls ℕ) :=
  trace Calls.next (.new ℕ sensitive 0) (probing ++ [l])

/-- The probe succeeds. -/
theorem decided_by_probes_probing :
    afterProbing (.settle 2 (.ok ()) 12) ≠ [] ∧
      ∀ p ∈ afterProbing (.settle 2 (.ok ()) 12), DecidedByProbes p := by
  have hadmitted : ∀ p ∈ afterProbing (.settle 2 (.ok ()) 12),
      OnlyProbesSettle p.1 p.2.1 ∧ p.1.Enabled p.2.1 := by decide +kernel
  exact ⟨nofun, decided_by_probes sensitive 0 (run_trace fun p hp =>
    ⟨(hadmitted p hp).1, (hadmitted p hp).2, mem_trace hp⟩)⟩

/-- A call from before the breaker opened decides the recovery. -/
theorem not_decided_by_probes :
    ¬ ∀ (opts : CircuitBreakerOptions) (now : Millis)
        (steps : List (Calls ℕ × CallLabel ℕ × Calls ℕ)) (σ : Calls ℕ),
        1 ≤ opts.successThreshold → Run CallStep Always (.new ℕ opts now) steps σ →
          ∀ p ∈ steps, DecidedByProbes p := by
  intro h
  have henabled : ∀ p ∈ afterProbing (.settle 1 (.error ()) 12), p.1.Enabled p.2.1 := by
    decide +kernel
  have hall := h sensitive 0 (afterProbing (.settle 1 (.error ()) 12)) _ (by decide)
    (run_trace fun p hp => ⟨trivial, henabled p hp, mem_trace hp⟩)
  refine not_decidedByProbes_of_settle (probing.foldl Calls.next (.new ℕ sensitive 0)) 1 12
    (by decide +kernel) (by decide +kernel) (hall _ ?_)
  simp [afterProbing, probing, trace, Calls.next]

end EnterpriseSystem.Resilience
