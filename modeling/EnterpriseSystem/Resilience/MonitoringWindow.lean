import EnterpriseSystem.Resilience.HttpClient

/-!
# The monitoring window of a circuit

The circuit of an HTTP client opens after `failureThreshold` failures, and its
options name a window these failures should lie in.

* `CircuitEvent`, `HttpClientService.record` — what is recorded on the circuits,
  in any order.
* `failuresIn` — how many failures of a client a window holds; `OpensOnBurst` — a
  circuit opens only on as many as its threshold.
* `streak` — the failures that the counter may still count: those since it was
  last zero.
* `opensOnBurst_of_fresh` — a circuit opens only on a burst, as long as none of
  these is older than the window when the next one comes.
-/

namespace EnterpriseSystem.Resilience

open Calendar

/-! ## What is recorded -/

/-- An event of a circuit. -/
inductive CircuitEvent where
  | getClient (name : String) (overrides : CircuitOverrides)
  | check (name : String) (now : Millis)
  | success (name : String) (now : Millis)
  | failure (name : String) (now : Millis)

/-- When, where it is told. -/
def CircuitEvent.time? : CircuitEvent → Option Millis
  | getClient _ _ => none
  | check _ now => some now
  | success _ now => some now
  | failure _ now => some now

namespace HttpClientService

/-- The overrides of a client. -/
def overrides (s : HttpClientService) (name : String) : CircuitOverrides := (s.clients name).getD {}

/-- The options of a circuit. -/
def options (s : HttpClientService) (name : String) : CircuitOptions :=
  httpCircuitOptions.override (s.overrides name)

/-- The service after an event. -/
def record (s : HttpClientService) : CircuitEvent → HttpClientService
  | .getClient name overrides => s.getClient name overrides
  | .check name now => match s.checkCircuit name now with
    | .ok s' => s'
    | .error _ => s
  | .success name now => s.recordSuccess name now
  | .failure name now => s.recordFailure name (s.overrides name) now

/-- The service after some events. -/
def recordAll (events : List CircuitEvent) : HttpClientService := events.foldl record new

/-- The circuit of a client is in this state. -/
def InState (s : HttpClientService) (name : String) (state : CircuitState) : Prop :=
  ∃ circuit, s.circuits name = some circuit ∧ circuit.state = state

instance (s : HttpClientService) (name : String) (state : CircuitState) :
    Decidable (s.InState name state) :=
  decidable_of_iff ((s.circuits name).map Circuit.state = some state) Option.map_eq_some_iff

end HttpClientService

open HttpClientService

/-- Times do not go back. -/
def InOrder (events : List CircuitEvent) : Prop :=
  (events.filterMap CircuitEvent.time?).Pairwise (· ≤ ·)

/-- When the failures of a client were recorded. -/
def failureTimes (name : String) (events : List CircuitEvent) : List Millis :=
  events.filterMap fun e => match e with
    | .failure name' now => if name' = name then some now else none
    | _ => none

/-- The failures of a client in a window that ends at a time. -/
def failuresIn (name : String) (events : List CircuitEvent) (window now : Millis) : ℕ :=
  (failureTimes name events).countP fun time => now - window < time ∧ time ≤ now

/-- **A circuit opens on a burst**: as many failures as its threshold lie in its window. -/
def OpensOnBurst (name : String) (events : List CircuitEvent) : Prop :=
  ∀ pre e post now, events = pre ++ e :: post → e.time? = some now →
    (recordAll pre).InState name .closed → (recordAll (pre ++ [e])).InState name .opened →
    ((recordAll pre).options name).failureThreshold ≤
      failuresIn name (pre ++ [e]) ((recordAll pre).options name).monitoringWindowMs now

/-! ## What the counter counts -/

/-- The circuit is closed and counts nothing, or there is none. -/
def HttpClientService.quiet (s : HttpClientService) (name : String) : Bool :=
  match s.circuits name with
  | none => true
  | some circuit => circuit.state = .closed && circuit.failures = 0

/-- The failures of a client counted so far, after another event. -/
def counted (name : String) (e : CircuitEvent) (times : List Millis) : List Millis :=
  match e with
  | .failure name' now => if name' = name then times ++ [now] else times
  | _ => times

/-- The service, and the failures of a client since its circuit was last quiet. -/
def watch (name : String) (w : HttpClientService × List Millis) (e : CircuitEvent) :
    HttpClientService × List Millis :=
  (w.1.record e, if (w.1.record e).quiet name then [] else counted name e w.2)

/-- The failures of a client since its circuit was last quiet. -/
def streak (name : String) (events : List CircuitEvent) : List Millis :=
  (events.foldl (watch name) (.new, [])).2

/-- When a failure is recorded on the closed circuit, it and the failures since the
circuit was last quiet lie in the window. -/
def Fresh (name : String) (events : List CircuitEvent) : Prop :=
  ∀ pre now post, events = pre ++ .failure name now :: post →
    (recordAll pre).InState name .closed →
    ∀ time ∈ streak name pre ++ [now],
      now - ((recordAll pre).options name).monitoringWindowMs < time

section

variable {s : HttpClientService} {name : String} {now : Millis} {e : CircuitEvent}
  {events : List CircuitEvent} {circuit : Circuit}

theorem recordAll_concat (events : List CircuitEvent) (e : CircuitEvent) :
    recordAll (events ++ [e]) = (recordAll events).record e := by
  unfold recordAll
  rw [List.foldl_concat]

theorem foldl_watch (name : String) (events : List CircuitEvent) :
    events.foldl (watch name) (.new, []) = (recordAll events, streak name events) := by
  induction events using List.reverseRecOn with
  | nil => rfl
  | append_singleton events e ih =>
    unfold streak
    rw [recordAll_concat, List.foldl_concat, ih]
    rfl

theorem streak_concat (name : String) (events : List CircuitEvent) (e : CircuitEvent) :
    streak name (events ++ [e]) =
      if (recordAll (events ++ [e])).quiet name then [] else counted name e (streak name events) := by
  have hstep : streak name (events ++ [e]) = (watch name (recordAll events, streak name events) e).2 := by
    unfold streak
    rw [List.foldl_concat, foldl_watch]
  rw [hstep, recordAll_concat]
  rfl

theorem failureTimes_concat (name : String) (events : List CircuitEvent) (e : CircuitEvent) :
    failureTimes name (events ++ [e]) = counted name e (failureTimes name events) := by
  unfold failureTimes
  rw [List.filterMap_append]
  cases e with
  | failure name' now =>
    by_cases hname : name' = name
    · simp [counted, hname]
    · simp [counted, hname]
  | getClient name' overrides => simp [counted]
  | check name' now => simp [counted]
  | success name' now => simp [counted]

/-! ## One event -/

theorem circuits_setCircuit_of_ne {name' : String} (h : name ≠ name') (circuit : Circuit) :
    (s.setCircuit name' circuit).circuits name = s.circuits name := Function.update_of_ne h ..

/-- A check leaves a closed circuit alone, and opens none. -/
theorem circuits_record_check (s : HttpClientService) (name name' : String) (now : Millis) :
    (s.record (.check name' now)).circuits name = s.circuits name ∨
      (s.record (.check name' now)).InState name .halfOpen ∧ s.InState name .opened := by
  show (match s.checkCircuit name' now with | .ok s' => s' | .error _ => s).circuits name = _ ∨
    HttpClientService.InState (match s.checkCircuit name' now with | .ok s' => s' | .error _ => s)
      name .halfOpen ∧ _
  unfold checkCircuit
  cases hcircuit : s.circuits name' with
  | none => exact .inl rfl
  | some circuit =>
    dsimp only
    cases hstate : circuit.state with
    | closed => exact .inl rfl
    | halfOpen => exact .inl rfl
    | opened =>
      dsimp only
      split_ifs
      · by_cases hname : name = name'
        · subst hname
          exact .inr ⟨⟨_, setCircuit_self .., rfl⟩, circuit, hcircuit, hstate⟩
        · exact .inl (circuits_setCircuit_of_ne hname _)
      · exact .inl rfl

/-- What a success makes of the counter. -/
theorem succeeded_closed (h : (succeeded circuit now).state = .closed) :
    (succeeded circuit now).failures = 0 ∨
      circuit.state = .closed ∧ (succeeded circuit now).failures ≤ circuit.failures := by
  unfold succeeded at h ⊢
  dsimp only at h ⊢
  split_ifs at h ⊢ <;> simp_all

/-- A success opens no closed circuit. -/
theorem succeeded_of_closed (h : circuit.state = .closed) :
    (succeeded circuit now).state = .closed := by
  unfold succeeded
  dsimp only
  split_ifs <;> simp_all

/-- What a failure makes of the counter of a circuit that it leaves closed. -/
theorem failed_closed {overrides : CircuitOverrides}
    (h : (failed circuit overrides now).state = .closed) :
    circuit.state = .closed ∧ (failed circuit overrides now).failures = circuit.failures + 1 := by
  unfold failed at h ⊢
  dsimp only at h ⊢
  split_ifs at h ⊢
  exact ⟨h, rfl⟩

/-- A failure opens a closed circuit at its threshold. -/
theorem failed_opened {overrides : CircuitOverrides} (hclosed : circuit.state = .closed)
    (h : (failed circuit overrides now).state = .opened) :
    (httpCircuitOptions.override overrides).failureThreshold ≤ ((circuit.failures + 1 : ℕ) : ℚ) := by
  unfold failed at h
  dsimp only at h
  rw [if_neg (by rw [hclosed]; decide)] at h
  split_ifs at h with hfull
  · exact hfull.2
  · exact nomatch hclosed.symm.trans h

/-- A client that is there keeps its circuit. -/
theorem circuits_record_getClient (s : HttpClientService) (name name' : String)
    (overrides : CircuitOverrides) :
    (s.record (.getClient name' overrides)).circuits name = s.circuits name ∨
      ∃ circuit, (s.record (.getClient name' overrides)).circuits name = some circuit ∧
        circuit.state = .closed ∧ circuit.failures = 0 := by
  show (s.getClient name' overrides).circuits name = _ ∨
    ∃ circuit, (s.getClient name' overrides).circuits name = some circuit ∧ _
  unfold getClient
  cases s.clients name' with
  | some _ => exact .inl rfl
  | none =>
    by_cases hname : name = name'
    · subst hname
      exact .inr ⟨_, setCircuit_self .., rfl, rfl⟩
    · exact .inl (circuits_setCircuit_of_ne hname _)

theorem circuits_record_success (s : HttpClientService) (name name' : String) (now : Millis) :
    (s.record (.success name' now)).circuits name =
      if name = name' then (s.circuits name).map (succeeded · now) else s.circuits name := by
  show (s.recordSuccess name' now).circuits name = _
  unfold recordSuccess
  split_ifs with hname
  · subst hname
    cases hcircuit : s.circuits name with
    | none => exact hcircuit
    | some circuit => exact setCircuit_self ..
  · cases s.circuits name' with
    | none => rfl
    | some circuit => exact circuits_setCircuit_of_ne hname _

theorem circuits_record_failure (s : HttpClientService) (name name' : String) (now : Millis) :
    (s.record (.failure name' now)).circuits name =
      if name = name' then (s.circuits name).map (failed · (s.overrides name) now)
      else s.circuits name := by
  show (s.recordFailure name' (s.overrides name') now).circuits name = _
  unfold recordFailure
  split_ifs with hname
  · subst hname
    cases hcircuit : s.circuits name with
    | none => exact hcircuit
    | some circuit => exact setCircuit_self ..
  · cases s.circuits name' with
    | none => rfl
    | some circuit => exact circuits_setCircuit_of_ne hname _

/-- **The counter of a closed circuit** rises with its own failures only. -/
theorem record_closed (h : (s.record e).circuits name = some circuit)
    (hclosed : circuit.state = .closed) :
    circuit.failures = 0 ∨ ∃ before, s.circuits name = some before ∧ before.state = .closed ∧
      (circuit.failures ≤ before.failures ∨
        (∃ now, e = .failure name now) ∧ circuit.failures = before.failures + 1) := by
  cases e with
  | getClient name' overrides =>
    rcases circuits_record_getClient s name name' overrides with hsame | ⟨fresh, hfresh, -, hzero⟩
    · exact .inr ⟨circuit, hsame.symm.trans h, hclosed, .inl le_rfl⟩
    · obtain rfl := Option.some.inj (hfresh.symm.trans h)
      exact .inl hzero
  | check name' now =>
    rcases circuits_record_check s name name' now with hsame | ⟨⟨half, hhalf, hstate⟩, -⟩
    · exact .inr ⟨circuit, hsame.symm.trans h, hclosed, .inl le_rfl⟩
    · obtain rfl := Option.some.inj (hhalf.symm.trans h)
      exact nomatch hstate.symm.trans hclosed
  | success name' now =>
    rw [circuits_record_success] at h
    split_ifs at h
    · obtain ⟨before, hbefore, rfl⟩ := Option.map_eq_some_iff.1 h
      rcases succeeded_closed hclosed with hzero | ⟨hstate, hle⟩
      · exact .inl hzero
      · exact .inr ⟨before, hbefore, hstate, .inl hle⟩
    · exact .inr ⟨circuit, h, hclosed, .inl le_rfl⟩
  | failure name' now =>
    rw [circuits_record_failure] at h
    split_ifs at h with hname
    · obtain ⟨before, hbefore, rfl⟩ := Option.map_eq_some_iff.1 h
      obtain ⟨hstate, hcount⟩ := failed_closed hclosed
      exact .inr ⟨before, hbefore, hstate, .inr ⟨⟨now, by rw [hname]⟩, hcount⟩⟩
    · exact .inr ⟨circuit, h, hclosed, .inl le_rfl⟩

/-- **A closed circuit is opened** by a failure that brings its counter to the threshold. -/
theorem record_opened (hclosed : s.InState name .closed) (h : (s.record e).InState name .opened) :
    ∃ now before, e = .failure name now ∧ s.circuits name = some before ∧
      before.state = .closed ∧
      (s.options name).failureThreshold ≤ ((before.failures + 1 : ℕ) : ℚ) := by
  obtain ⟨before, hbefore, hstate⟩ := hclosed
  obtain ⟨circuit, hcircuit, hopened⟩ := h
  have hunchanged : (s.record e).circuits name ≠ s.circuits name := by
    intro hsame
    obtain rfl := Option.some.inj ((hsame.symm.trans hcircuit).symm.trans hbefore)
    exact nomatch hstate.symm.trans hopened
  cases e with
  | getClient name' overrides =>
    rcases circuits_record_getClient s name name' overrides with hsame | ⟨fresh, hfresh, hnew, -⟩
    · exact absurd hsame hunchanged
    · obtain rfl := Option.some.inj (hfresh.symm.trans hcircuit)
      exact nomatch hnew.symm.trans hopened
  | check name' now =>
    rcases circuits_record_check s name name' now with hsame | ⟨⟨half, hhalf, hhalfOpen⟩, -⟩
    · exact absurd hsame hunchanged
    · obtain rfl := Option.some.inj (hhalf.symm.trans hcircuit)
      exact nomatch hhalfOpen.symm.trans hopened
  | success name' now =>
    rw [circuits_record_success] at hcircuit hunchanged
    split_ifs at hcircuit hunchanged
    · rw [hbefore] at hcircuit
      obtain rfl := Option.some.inj hcircuit
      exact nomatch (succeeded_of_closed hstate).symm.trans hopened
    · exact absurd rfl hunchanged
  | failure name' now =>
    rw [circuits_record_failure] at hcircuit hunchanged
    split_ifs at hcircuit hunchanged with hname
    · rw [hbefore] at hcircuit
      obtain rfl := Option.some.inj hcircuit
      exact ⟨now, before, by rw [hname], hbefore, hstate, failed_opened hstate hopened⟩
    · exact absurd rfl hunchanged

/-! ## All events -/

/-- What the counter of a closed circuit counts is among the streak. -/
structure Counts (name : String) (events : List CircuitEvent) : Prop where
  recorded : (streak name events).Sublist (failureTimes name events)
  counter : ∀ circuit, (recordAll events).circuits name = some circuit →
    circuit.state = .closed → circuit.failures ≤ (streak name events).length

theorem counted_sublist {times times' : List Millis} (h : times.Sublist times') :
    (counted name e times).Sublist (counted name e times') := by
  unfold counted
  cases e with
  | failure name' now =>
    dsimp only
    split_ifs
    · exact h.append_right _
    · exact h
  | _ => exact h

theorem sublist_counted (times : List Millis) : times.Sublist (counted name e times) := by
  unfold counted
  cases e with
  | failure name' now =>
    dsimp only
    split_ifs
    · exact List.sublist_append_left ..
    · exact .refl _
  | _ => exact .refl _

theorem counts (name : String) (events : List CircuitEvent) : Counts name events := by
  induction events using List.reverseRecOn with
  | nil => exact ⟨.refl _, nofun⟩
  | append_singleton events e ih =>
    refine ⟨?_, fun circuit hcircuit hclosed => ?_⟩
    · rw [streak_concat, failureTimes_concat]
      split_ifs
      · exact List.nil_sublist _
      · exact counted_sublist ih.recorded
    · -- a counter that is not zero has not been reset, nor has the streak
      by_cases hzero : circuit.failures = 0
      · rw [hzero]
        exact Nat.zero_le _
      have hloud : (recordAll (events ++ [e])).quiet name = false := by
        unfold HttpClientService.quiet
        rw [hcircuit]
        simp [hzero]
      rw [streak_concat, hloud, if_neg Bool.false_ne_true]
      rw [recordAll_concat] at hcircuit
      rcases record_closed hcircuit hclosed with habsurd | ⟨before, hbefore, hstate, hcases⟩
      · exact absurd habsurd hzero
      have hbound := ih.counter before hbefore hstate
      rcases hcases with hle | ⟨⟨now, rfl⟩, hcount⟩
      · exact (hle.trans hbound).trans (sublist_counted _).length_le
      · rw [hcount, counted, if_pos rfl, List.length_append, List.length_singleton]
        omega

/-- Recorded failures are not later than an event that follows them. -/
theorem le_of_mem_failureTimes {pre : List CircuitEvent} (horder : InOrder (pre ++ [e]))
    (hnow : e.time? = some now) {time : Millis} (h : time ∈ failureTimes name pre) :
    time ≤ now := by
  obtain ⟨e', he', hfailure⟩ := List.mem_filterMap.1 h
  have htime : e'.time? = some time := by
    cases e' with
    | failure name' now' =>
      dsimp only at hfailure
      split_ifs at hfailure
      exact hfailure
    | _ => exact nomatch hfailure
  unfold InOrder at horder
  rw [List.filterMap_append, List.pairwise_append] at horder
  refine horder.2.2 time (List.mem_filterMap.2 ⟨e', he', htime⟩) now ?_
  exact List.mem_filterMap.2 ⟨e, List.mem_singleton_self _, hnow⟩

/-- **A circuit opens only on a burst**, as long as no failure that it may still count
is older than the window when the next one is recorded. -/
theorem opensOnBurst_of_fresh (horder : InOrder events) (hfresh : Fresh name events) :
    OpensOnBurst name events := by
  intro pre e post now hevents htime hclosed hopened
  rw [recordAll_concat] at hopened
  obtain ⟨now', before, rfl, hbefore, hstate, hthreshold⟩ := record_opened hclosed hopened
  obtain rfl : now' = now := Option.some.inj htime
  have hcounts := counts name pre
  have hinWindow := hfresh pre now' post hevents hclosed
  set window := ((recordAll pre).options name).monitoringWindowMs
  -- every failure of the streak lies in the window, this one included
  have hall : ∀ time ∈ streak name pre ++ [now'], now' - window < time ∧ time ≤ now' := by
    intro time hmem
    refine ⟨hinWindow time hmem, ?_⟩
    rcases List.mem_append.1 hmem with hmem | hmem
    · have hordered : InOrder (pre ++ [.failure name now']) := by
        unfold InOrder at horder ⊢
        rw [hevents, List.append_cons, List.filterMap_append] at horder
        exact (List.pairwise_append.1 horder).1
      exact le_of_mem_failureTimes hordered rfl (hcounts.recorded.subset hmem)
    · rw [List.mem_singleton.1 hmem]
  have hmany : (streak name pre).length + 1 ≤
      failuresIn name (pre ++ [.failure name now']) window now' := by
    unfold failuresIn
    rw [failureTimes_concat, counted, if_pos rfl]
    have hsublist := (hcounts.recorded.append_right [now']).countP_le
      (p := fun time => decide (now' - window < time ∧ time ≤ now'))
    have hfull : (streak name pre ++ [now']).countP
        (fun time => decide (now' - window < time ∧ time ≤ now')) =
        (streak name pre ++ [now']).length :=
      List.countP_eq_length.2 fun time hmem => decide_eq_true (hall time hmem)
    rw [hfull, List.length_append, List.length_singleton] at hsublist
    exact hsublist
  have hbound := hcounts.counter before hbefore hstate
  refine hthreshold.trans ?_
  exact_mod_cast (by omega : before.failures + 1 ≤ _)

end

/-! ## Five days -/

/-- A failure a day. -/
def daily : List CircuitEvent :=
  [.getClient "api" {}, .failure "api" 0, .failure "api" 86400000, .failure "api" 172800000,
    .failure "api" 259200000, .failure "api" 345600000]

/-- Five failures within a second. -/
def burst : List CircuitEvent :=
  [.getClient "api" {}, .failure "api" 0, .failure "api" 250, .failure "api" 500,
    .failure "api" 750, .failure "api" 1000]

theorem opensOnBurst_burst : OpensOnBurst "api" burst := by
  refine opensOnBurst_of_fresh ?_ ?_
  · show List.Pairwise _ _
    decide +kernel
  · intro pre now post hevents _
    rcases pre with _ | ⟨_, _ | ⟨_, _ | ⟨_, _ | ⟨_, _ | ⟨_, _ | ⟨_, pre⟩⟩⟩⟩⟩⟩ <;>
      simp only [burst, List.nil_append, List.cons_append, List.cons.injEq, CircuitEvent.failure.injEq,
        reduceCtorEq, false_and, true_and, List.nil_eq, List.append_eq_nil_iff, and_false] at hevents
    · obtain ⟨rfl, rfl, rfl⟩ := hevents
      decide +kernel
    · obtain ⟨rfl, rfl, rfl, rfl⟩ := hevents
      decide +kernel
    · obtain ⟨rfl, rfl, rfl, rfl, rfl⟩ := hevents
      decide +kernel
    · obtain ⟨rfl, rfl, rfl, rfl, rfl, rfl⟩ := hevents
      decide +kernel
    · obtain ⟨rfl, rfl, rfl, rfl, rfl, rfl, rfl⟩ := hevents
      decide +kernel

/-- The fifth failure opens the circuit, alone in its window. -/
theorem not_opensOnBurst :
    ¬ ∀ (name : String) (events : List CircuitEvent), InOrder events → OpensOnBurst name events := by
  intro h
  have horder : InOrder daily := by
    show List.Pairwise _ _
    decide +kernel
  have hclosed : (recordAll (daily.take 5)).InState "api" .closed := by decide +kernel
  have hopened : (recordAll daily).InState "api" .opened := by decide +kernel
  have hburst := h "api" daily horder (daily.take 5) (.failure "api" 345600000) [] 345600000 rfl rfl
    hclosed hopened
  exact absurd hburst (by decide +kernel)

end EnterpriseSystem.Resilience
