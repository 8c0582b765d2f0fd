import Mathlib

/-!
# Runs of a labelled transition system

Everything this development proves about a whole run goes through one notion:
the states a system can reach by steps that all meet a condition.

* `Reach step ok s₀` — the states reached from `s₀` by steps `step s l s'`
  whose label and starting state satisfy `ok`.  An unrestricted run takes
  `ok` to be always true (`Always`).
* `Reach.invariant` — the induction: what holds at the start and survives
  every admitted step holds in every state reached.
* `Reach.simulate` — a system simulated by another one stays within what that
  one reaches.
* `Run` — the same with the list of the steps taken, for what depends on how a
  state was reached; `Run.length_add_le` bounds how long a run gets,
  `Run.steps_iff`, `Run.forall_iff` and `Run.iff_of_absorbing` say exactly which
  runs keep a property.
* `reach_foldl`, `run_trace` — a deterministic system run on a list of inputs
  reaches the state the fold computes, which is how a concrete run is exhibited.
-/

namespace Relational

variable {σ L : Type*}

/-- The condition every step meets. -/
def Always : σ → L → Prop := fun _ _ => True

/-- The states reachable from `s₀` by steps that meet `ok`. -/
inductive Reach (step : σ → L → σ → Prop) (ok : σ → L → Prop) (s₀ : σ) : σ → Prop where
  | start : Reach step ok s₀ s₀
  | next {s s' : σ} {l : L} : Reach step ok s₀ s → ok s l → step s l s' → Reach step ok s₀ s'

namespace Reach

variable {step : σ → L → σ → Prop} {ok : σ → L → Prop} {s₀ s : σ}

/-- **Invariant induction.** -/
theorem invariant {Inv : σ → Prop} (h : Reach step ok s₀ s) (h₀ : Inv s₀)
    (hstep : ∀ {s l s'}, Inv s → ok s l → step s l s' → Inv s') : Inv s := by
  induction h with
  | start => exact h₀
  | next _ hok hs ih => exact hstep ih hok hs

/-- A weaker condition reaches at least as much. -/
theorem mono {ok' : σ → L → Prop} (h : Reach step ok s₀ s) (hok : ∀ s l, ok s l → ok' s l) :
    Reach step ok' s₀ s := by
  induction h with
  | start => exact .start
  | next _ hl hs ih => exact .next ih (hok _ _ hl) hs

theorem trans {s' : σ} (h : Reach step ok s₀ s) (h' : Reach step ok s s') :
    Reach step ok s₀ s' := by
  induction h' with
  | start => exact h
  | next _ hok hs ih => exact .next ih hok hs

/-- **Forward simulation**: where every step is matched by one of another system,
every run is. -/
theorem simulate {τ : Type*} {R : σ → τ → Prop} {step' : τ → L → τ → Prop} {ok' : τ → L → Prop}
    {t₀ : τ} (h : Reach step ok s₀ s) (h₀ : R s₀ t₀)
    (hstep : ∀ {s l s' t}, R s t → ok s l → step s l s' → ∃ t', R s' t' ∧ ok' t l ∧ step' t l t') :
    ∃ t, R s t ∧ Reach step' ok' t₀ t := by
  induction h with
  | start => exact ⟨t₀, h₀, .start⟩
  | next _ hok hs ih =>
    obtain ⟨t, hst, hreach⟩ := ih
    obtain ⟨t', hst', hok', hs'⟩ := hstep hst hok hs
    exact ⟨t', hst', .next hreach hok' hs'⟩

end Reach

/-- A run with its history: the steps taken, the first one first. -/
inductive Run (step : σ → L → σ → Prop) (ok : σ → L → Prop) (s₀ : σ) :
    List (σ × L × σ) → σ → Prop where
  | start : Run step ok s₀ [] s₀
  | next {steps : List (σ × L × σ)} {s s' : σ} {l : L} : Run step ok s₀ steps s → ok s l →
      step s l s' → Run step ok s₀ (steps ++ [(s, l, s')]) s'

namespace Run

variable {step : σ → L → σ → Prop} {ok : σ → L → Prop} {s₀ s : σ} {steps : List (σ × L × σ)}

/-- **Invariant induction** with the history. -/
theorem invariant {Inv : List (σ × L × σ) → σ → Prop} (h : Run step ok s₀ steps s)
    (h₀ : Inv [] s₀)
    (hstep : ∀ {steps s l s'}, Run step ok s₀ steps s → Inv steps s → ok s l → step s l s' →
      Inv (steps ++ [(s, l, s')]) s') : Inv steps s := by
  induction h with
  | start => exact h₀
  | next h hok hs ih => exact hstep h ih hok hs

theorem reach (h : Run step ok s₀ steps s) : Reach step ok s₀ s := by
  induction h with
  | start => exact .start
  | next _ hok hs ih => exact .next ih hok hs

theorem append {s' : σ} {steps' : List (σ × L × σ)} (h : Run step ok s₀ steps s)
    (h' : Run step ok s steps' s') : Run step ok s₀ (steps ++ steps') s' := by
  induction h' with
  | start => simpa using h
  | next _ hok hs ih =>
    rw [← List.append_assoc]
    exact .next ih hok hs

/-- A run is cut anywhere. -/
theorem of_append {steps' : List (σ × L × σ)} (h : Run step ok s₀ (steps ++ steps') s) :
    ∃ s₁, Run step ok s₀ steps s₁ ∧ Run step ok s₁ steps' s := by
  induction steps' using List.reverseRecOn generalizing s with
  | nil => exact ⟨s, by simpa using h, .start⟩
  | append_singleton steps' p ih =>
    rw [← List.append_assoc] at h
    generalize hall : steps ++ steps' ++ [p] = all at h
    cases h with
    | start => simp at hall
    | next h hok hs =>
      obtain ⟨hinit, hlast⟩ := List.append_inj' hall rfl
      cases hlast
      subst hinit
      obtain ⟨s₁, hfirst, hrest⟩ := ih h
      exact ⟨s₁, hfirst, .next hrest hok hs⟩

/-- The first step of a run, and the rest of it. -/
theorem of_cons {p : σ × L × σ} (h : Run step ok s₀ (p :: steps) s) :
    s₀ = p.1 ∧ ok p.1 p.2.1 ∧ step p.1 p.2.1 p.2.2 ∧ Run step ok p.2.2 steps s := by
  have hsplit : Run step ok s₀ ([p] ++ steps) s := h
  obtain ⟨s₁, hfirst, hrest⟩ := hsplit.of_append
  generalize hall : [p] = all at hfirst
  cases hfirst with
  | start => exact nomatch hall
  | next hbefore hok hs =>
    obtain ⟨hnil, hlast⟩ := List.append_inj' ((List.nil_append [p]).trans hall) rfl
    cases hlast
    generalize hinit : [] = init at hnil
    subst hnil
    cases hbefore with
    | start => exact ⟨rfl, hok, hs, hrest⟩
    | next => simp at hinit

/-- The last step of a run, and what came before it. -/
theorem of_concat {p : σ × L × σ} (h : Run step ok s₀ (steps ++ [p]) s) :
    Run step ok s₀ steps p.1 ∧ step p.1 p.2.1 p.2.2 ∧ s = p.2.2 := by
  generalize hall : steps ++ [p] = all at h
  cases h with
  | start => simp at hall
  | next h _ hs =>
    obtain ⟨hinit, hlast⟩ := List.append_inj' hall rfl
    cases hlast
    subst hinit
    exact ⟨h, hs, rfl⟩

/-- A run whose steps all meet a condition. -/
theorem restrict {ok' : σ → L → Prop} (h : Run step ok s₀ steps s)
    (hok : ∀ p ∈ steps, ok' p.1 p.2.1) : Run step ok' s₀ steps s := by
  induction h with
  | start => exact .start
  | next _ _ hs ih =>
    have hbefore := ih fun p hp => hok p (List.mem_append_left _ hp)
    exact .next hbefore (hok _ (List.mem_append_right _ (List.mem_singleton_self _))) hs

/-- **Termination**: a measure that every step lowers bounds how long a run gets. -/
theorem length_add_le {μ : σ → ℕ} (h : Run step ok s₀ steps s)
    (hstep : ∀ {s l s'}, Reach step ok s₀ s → ok s l → step s l s' → μ s' < μ s) :
    steps.length + μ s ≤ μ s₀ := by
  induction h with
  | start => exact (Nat.zero_add _).le
  | next h hok hs ih =>
    have hlt := hstep h.reach hok hs
    rw [List.length_append, List.length_singleton]
    omega

/-- Every entry of the history is an admitted step. -/
theorem step_of_mem {p : σ × L × σ} (h : Run step ok s₀ steps s) (hp : p ∈ steps) :
    step p.1 p.2.1 p.2.2 := by
  induction h with
  | start => exact nomatch hp
  | next _ _ hs ih =>
    rcases List.mem_append.1 hp with hp | hp
    · exact ih hp
    · obtain rfl := List.mem_singleton.1 hp
      exact hs

/-- **Exact conditions.**  Where, as long as the invariant holds, a step is good
exactly when it meets `keeps`, and then keeps the invariant, all steps of a run
are good exactly when all of them meet `keeps`. -/
theorem steps_iff {Inv : σ → Prop} {good : σ → L → σ → Prop} {keeps : σ → L → Prop}
    (h : Run step ok s₀ steps s) (h₀ : Inv s₀)
    (hgood : ∀ {s l s'}, Inv s → ok s l → step s l s' → (good s l s' ↔ keeps s l))
    (hkeep : ∀ {s l s'}, Inv s → ok s l → step s l s' → keeps s l → Inv s') :
    (∀ p ∈ steps, good p.1 p.2.1 p.2.2) ↔ ∀ p ∈ steps, keeps p.1 p.2.1 := by
  -- the last step starts in the state the run has reached so far
  have hall : ((∀ p ∈ steps, good p.1 p.2.1 p.2.2) ↔ ∀ p ∈ steps, keeps p.1 p.2.1) ∧
      ((∀ p ∈ steps, keeps p.1 p.2.1) → Inv s) := by
    induction h with
    | start => exact ⟨by simp, fun _ => h₀⟩
    | next _ hok hs ih =>
      obtain ⟨hiff, hlast⟩ := ih
      simp only [List.mem_append, List.mem_singleton, or_imp, forall_and, forall_eq]
      refine ⟨⟨?_, ?_⟩, fun h => hkeep (hlast h.1) hok hs h.2⟩
      · rintro ⟨hbefore, hlastgood⟩
        have hkeeps := hiff.1 hbefore
        exact ⟨hkeeps, (hgood (hlast hkeeps) hok hs).1 hlastgood⟩
      · rintro ⟨hbefore, hkeeps⟩
        exact ⟨hiff.2 hbefore, (hgood (hlast hbefore) hok hs).2 hkeeps⟩
  exact hall.1

/-- The same for the invariant itself: one step keeps it exactly when it meets `keeps`. -/
theorem forall_iff {Inv : σ → Prop} {keeps : σ → L → Prop} (h : Run step ok s₀ steps s)
    (h₀ : Inv s₀)
    (hstep : ∀ {s l s'}, Inv s → ok s l → step s l s' → (Inv s' ↔ keeps s l)) :
    (∀ p ∈ steps, Inv p.2.2) ↔ ∀ p ∈ steps, keeps p.1 p.2.1 := by
  have hkeep : ∀ {s l s'}, Inv s → ok s l → step s l s' → keeps s l → Inv s' :=
    fun hinv hok hs => (hstep hinv hok hs).2
  exact h.steps_iff h₀ hstep hkeep

/-- **A condition broken for good.**  Where a step keeps the invariant if it meets
`keeps`, and otherwise leads to where the invariant never holds again, the
invariant holds at the end of a run exactly when every step of it meets `keeps`. -/
theorem iff_of_absorbing {Inv Bad : σ → Prop} {keeps : σ → L → Prop}
    (h : Run step ok s₀ steps s) (h₀ : Inv s₀) (hbad : ∀ s, Bad s → ¬ Inv s)
    (hkeep : ∀ {s l s'}, Inv s → step s l s' → keeps s l → Inv s')
    (hbreak : ∀ {s l s'}, Inv s → step s l s' → ¬ keeps s l → Bad s')
    (hstay : ∀ {s l s'}, Bad s → step s l s' → Bad s') :
    Inv s ↔ ∀ p ∈ steps, keeps p.1 p.2.1 := by
  have hside : (Inv s ∧ ∀ p ∈ steps, keeps p.1 p.2.1) ∨
      (Bad s ∧ ¬ ∀ p ∈ steps, keeps p.1 p.2.1) := by
    induction h with
    | start => exact Or.inl ⟨h₀, by simp⟩
    | @next steps s s' l _ _ hs ih =>
      simp only [List.mem_append, List.mem_singleton, or_imp, forall_and, forall_eq]
      rcases ih with ⟨hinv, hall⟩ | ⟨hbroken, hnot⟩
      · by_cases hl : keeps s l
        · exact Or.inl ⟨hkeep hinv hs hl, hall, hl⟩
        · exact Or.inr ⟨hbreak hinv hs hl, fun h => hl h.2⟩
      · exact Or.inr ⟨hstay hbroken hs, fun h => hnot h.1⟩
  rcases hside with ⟨hinv, hall⟩ | ⟨hbroken, hnot⟩
  · exact iff_of_true hinv hall
  · exact iff_of_false (hbad s hbroken) hnot

end Run

/-- A state that can be reached is reached by a run. -/
theorem Reach.exists_run {step : σ → L → σ → Prop} {ok : σ → L → Prop} {s₀ s : σ}
    (h : Reach step ok s₀ s) : ∃ steps, Run step ok s₀ steps s := by
  induction h with
  | start => exact ⟨[], .start⟩
  | next _ hok hs ih =>
    obtain ⟨steps, hrun⟩ := ih
    exact ⟨_, .next hrun hok hs⟩

/-- The step relation of a deterministic system. -/
def Deterministic (f : σ → L → σ) : σ → L → σ → Prop := fun s l s' => s' = f s l

/-- Running a deterministic system on a list of inputs that all meet the
condition stays within what it can reach. -/
theorem reach_foldl (f : σ → L → σ) {ok : σ → L → Prop} {ls : List L}
    (h : ∀ l ∈ ls, ∀ s, ok s l) (s₀ : σ) : Reach (Deterministic f) ok s₀ (ls.foldl f s₀) := by
  induction ls generalizing s₀ with
  | nil => exact .start
  | cons l ls ih =>
    have hfirst : Reach (Deterministic f) ok s₀ (f s₀ l) :=
      .next .start (h l (List.mem_cons_self ..) s₀) rfl
    exact hfirst.trans (ih (fun l' hl' => h l' (List.mem_cons_of_mem _ hl')) (f s₀ l))

/-- The history of a deterministic system over a list of labels. -/
def trace (f : σ → L → σ) : σ → List L → List (σ × L × σ)
  | _, [] => []
  | s, l :: ls => (s, l, f s l) :: trace f (f s l) ls

theorem mem_trace {f : σ → L → σ} {s : σ} {ls : List L} {p : σ × L × σ}
    (h : p ∈ trace f s ls) : p.2.2 = f p.1 p.2.1 := by
  induction ls generalizing s with
  | nil => exact nomatch h
  | cons l ls ih =>
    rcases List.mem_cons.1 h with rfl | h
    · rfl
    · exact ih h

/-- A history of admitted steps is a run. -/
theorem run_trace {step : σ → L → σ → Prop} {ok : σ → L → Prop} {f : σ → L → σ} {s : σ}
    {ls : List L} (h : ∀ p ∈ trace f s ls, ok p.1 p.2.1 ∧ step p.1 p.2.1 p.2.2) :
    Run step ok s (trace f s ls) (ls.foldl f s) := by
  induction ls generalizing s with
  | nil => exact .start
  | cons l ls ih =>
    obtain ⟨hok, hs⟩ := h _ (List.mem_cons_self ..)
    have hfirst : Run step ok s ([] ++ [(s, l, f s l)]) (f s l) := .next .start hok hs
    exact hfirst.append (ih fun p hp => h p (List.mem_cons_of_mem _ hp))

end Relational
