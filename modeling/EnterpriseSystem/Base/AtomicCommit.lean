import EnterpriseSystem.Base.RelyGuarantee

/-!
# Calls that happen at their commit

Under READ COMMITTED the statements of a call run on different committed rows.  Where its locks keep
what the call has read, the whole call could as well have happened at once, when it commits.

* `CommitsAs` — what a commit then owes: it is one step of a specification.
* `commits` — the calls of a run that have committed, in the order of their commits.
* `InOrder` — the steps of a specification, one after the other.
* `Discipline.inOrder` — if every call owes that, every run is as good as its calls in this order;
  `Discipline.keeps` is how an invariant of the specifications becomes one of the runs.
-/

namespace Concurrency

section

variable {ι D W K E α : Type}

/-- The commit of a call that returns `a` is a step of the specification `spec`. -/
def CommitsAs (apply : D → W → D) (R : Discipline D K E) (spec : α → D → D → Prop) (a : α) :
    Assertion D W K := fun own held d => ∀ d', R.Rely held d d' → R.Inv d' →
  R.Inv (view apply d' own) ∧
    (∀ held', (∀ k ∈ held, k ∉ held') → R.Rely held' d' (view apply d' own)) ∧
      spec a d' (view apply d' own)

/-- Steps of the specifications of several calls, one after the other. -/
inductive InOrder (spec : ι → α → D → D → Prop) (d : D) : List (ι × α) → D → Prop where
  | start : InOrder spec d [] d
  | next {order : List (ι × α)} {d' d'' : D} {i : ι} {a : α} : InOrder spec d order d' →
      spec i a d' d'' → InOrder spec d (order ++ [(i, a)]) d''

variable {apply : D → W → D} {R : Discipline D K E} {spec : ι → α → D → D → Prop}

theorem CommitsAs.committable {a : α} {spec : α → D → D → Prop} {own : List W} {held : List K}
    {d : D} (h : CommitsAs apply R spec a own held d) : Committable apply R own held d := by
  intro d' hrely hinv
  obtain ⟨hkeeps, hothers, -⟩ := h d' hrely hinv
  exact ⟨hkeeps, hothers⟩

/-- What a call ends in for two reasons, it ends in for both. -/
theorem Call.wp_and {p : Call D W K E α} {Q Q' : α → Assertion D W K} {own : List W} {held : List K}
    {d : D} (h : Call.wp apply R p Q own held d) (h' : Call.wp apply R p Q' own held d) :
    Call.wp apply R p (fun a own held d => Q a own held d ∧ Q' a own held d) own held d := by
  have key : ∀ (q : Prog (Stmt D W K E) Stmt.Res (Except E α)) {own held d},
      Prog.wp apply R q (Outcome R Q) own held d → Prog.wp apply R q (Outcome R Q') own held d →
      Prog.wp apply R q (Outcome R fun a own held d => Q a own held d ∧ Q' a own held d)
        own held d := by
    intro q
    induction q with
    | ret r =>
      intro own held d hq hq'
      cases r with
      | ok a => exact ⟨hq, hq'⟩
      | error e => exact hq
    | op o k ih => exact fun hq hq' d' hrely hinv => ih _ (hq d' hrely hinv) (hq' d' hrely hinv)
  exact key _ h h'

theorem stable_commitsAs (spec : α → D → D → Prop) (a : α) :
    Stable R (CommitsAs apply R spec a) := by
  intro own held d d' h hrely _ d'' hrely' hinv
  exact h d'' (R.trans hrely hrely') hinv

variable [DecidableEq ι]

/-- The answer of the call that has committed in this step, if one has. -/
def commit? (p : State ι D W K E α × ι × State ι D W K E α) : Option (ι × α) :=
  match p.2.2.calls p.2.1 with
  | .committed a => some (p.2.1, a)
  | _ => none

/-- The calls that have committed, the first one first, with their answers. -/
def commits (steps : List (State ι D W K E α × ι × State ι D W K E α)) : List (ι × α) :=
  steps.filterMap commit?

/-- Every call still has to do what ends in a step of its specification. -/
def Owing (apply : D → W → D) (R : Discipline D K E) (spec : ι → α → D → D → Prop)
    (σ : State ι D W K E α) : Prop :=
  ∀ i own held code, σ.calls i = .running own held code →
    Prog.wp apply R code (Outcome R (CommitsAs apply R (spec i))) own held σ.committed

/-- **One step** leaves the calls owing. -/
theorem Owing.step {σ σ' : State ι D W K E α} {i : ι} (hcoherent : Coherent apply R σ)
    (h : Owing apply R spec σ) (hs : Step apply σ i σ') : Owing apply R spec σ' := by
  -- a call that has ended owes nothing, the others owe what they did
  have hset : ∀ c : CallState D W K E α, (∀ own held code, c ≠ .running own held code) →
      Owing apply R spec (σ.set i c) := by
    intro c hc j own held code hj
    by_cases hji : j = i
    · subst hji
      rw [State.set_calls_self] at hj
      exact absurd hj (hc own held code)
    · rw [State.set_calls_of_ne σ _ hji] at hj
      exact h j own held code hj
  cases hs with
  | @exec own held o k hi hfree =>
    intro j own' held' code' hj
    by_cases hji : j = i
    · subst hji
      rw [State.set_calls_self] at hj
      cases hj
      exact h j own held _ hi σ.committed (R.refl _ _) hcoherent.inv
    · rw [State.set_calls_of_ne σ _ hji] at hj
      exact h j own' held' code' hj
  | @commit own held a hi =>
    have hcommit : Committable apply R own held σ.committed := hcoherent.code i own held _ hi
    obtain ⟨hinv, hothers⟩ := hcommit σ.committed (R.refl _ _) hcoherent.inv
    intro j own' held' code' hj
    have hji : j ≠ i := by
      rintro rfl
      rw [State.set_calls_self] at hj
      cases hj
    rw [State.set_calls_of_ne σ _ hji] at hj
    refine Prog.stable_wp ?_ (h j own' held' code' hj) (hothers held' ?_) hinv
    · intro r
      cases r with
      | ok a => exact stable_commitsAs (spec j) a
      | error e => exact fun h _ _ => h
    · intro l hl hl'
      exact hcoherent.locks i j (Ne.symm hji) l (by rw [hi]; exact hl) (by rw [hj]; exact hl')
  | @abort own held e hi => exact hset _ fun _ _ _ hc => by cases hc
  | cancel _ => exact hset _ fun _ _ _ hc => by cases hc

/-- A step commits a call and is a step of its specification, or it changes no committed row. -/
theorem Owing.cases {σ σ' : State ι D W K E α} {i : ι} (hcoherent : Coherent apply R σ)
    (h : Owing apply R spec σ) (hs : Step apply σ i σ') :
    (∃ a, commit? (σ, i, σ') = some (i, a) ∧ spec i a σ.committed σ'.committed) ∨
      commit? (σ, i, σ') = none ∧ σ'.committed = σ.committed := by
  cases hs with
  | @commit own held a hi =>
    have howes : CommitsAs apply R (spec i) a own held σ.committed := h i own held _ hi
    refine Or.inl ⟨a, ?_, (howes σ.committed (R.refl _ _) hcoherent.inv).2.2⟩
    simp [commit?]
  | _ => exact Or.inr ⟨by simp [commit?], rfl⟩

/-- A step is one of a call that has not ended, and leaves the others alone. -/
theorem Step.frame {σ σ' : State ι D W K E α} {i : ι} (hs : Step apply σ i σ') :
    (∀ a, σ.calls i ≠ .committed a) ∧ ∀ j, j ≠ i → σ'.calls j = σ.calls j := by
  cases hs with
  | exec hi => exact ⟨fun a ha => by simp [hi] at ha, fun j hj => State.set_calls_of_ne σ _ hj⟩
  | commit hi => exact ⟨fun a ha => by simp [hi] at ha, fun j hj => State.set_calls_of_ne σ _ hj⟩
  | abort hi => exact ⟨fun a ha => by simp [hi] at ha, fun j hj => State.set_calls_of_ne σ _ hj⟩
  | cancel hi => exact ⟨fun a ha => by simp [hi] at ha, fun j hj => State.set_calls_of_ne σ _ hj⟩

omit [DecidableEq ι] in
theorem commit?_eq_some_iff {σ σ' : State ι D W K E α} {i j : ι} {a : α} :
    commit? (σ, i, σ') = some (j, a) ↔ j = i ∧ σ'.calls i = .committed a := by
  unfold commit?
  cases hcall : σ'.calls i with
  | committed b => simp [eq_comm]
  | _ => simp

/-- **The commits of a run** are the calls that have committed, each of them once. -/
theorem mem_commits_iff {p : ι → Call D W K E α} {d : D} {σ : State ι D W K E α}
    {steps : List (State ι D W K E α × ι × State ι D W K E α)}
    (h : Relational.Run (Step apply) Relational.Always (State.initial d p) steps σ) :
    ((commits steps).map Prod.fst).Nodup ∧
      ∀ i a, (i, a) ∈ commits steps ↔ σ.calls i = .committed a := by
  induction h with
  | start => simp [commits, State.initial, CallState.start]
  | @next steps σ σ' i _ _ hs ih =>
    obtain ⟨hnodup, hmem⟩ := ih
    obtain ⟨hrunning, hothers⟩ := hs.frame
    have happend : commits (steps ++ [(σ, i, σ')]) =
        commits steps ++ (commit? (σ, i, σ')).toList := by
      rw [commits, List.filterMap_append, ← commits]
      cases hcommit : commit? (σ, i, σ') <;> simp [hcommit]
    rw [happend]
    constructor
    · rw [List.map_append, List.nodup_append]
      refine ⟨hnodup, by cases commit? (σ, i, σ') <;> simp, ?_⟩
      rintro j hj _ hlast rfl
      obtain ⟨⟨j, a⟩, ha, rfl⟩ := List.mem_map.1 hj
      obtain ⟨⟨k, b⟩, hb, hk⟩ := List.mem_map.1 hlast
      obtain ⟨rfl, -⟩ := commit?_eq_some_iff.1 (Option.mem_toList.1 hb)
      obtain rfl : k = j := hk
      exact hrunning a ((hmem k a).1 ha)
    · intro j a
      rw [List.mem_append, Option.mem_toList, commit?_eq_some_iff, hmem]
      by_cases hji : j = i
      · subst hji
        simp [hrunning a]
      · simp [hji, hothers j hji]

section

variable {p : ι → Call D W K E α} {d : D} {σ : State ι D W K E α}
  {steps : List (State ι D W K E α × ι × State ι D W K E α)}

/-- The calls of a run owe their specifications all along. -/
theorem Discipline.owing (hinv : R.Inv d)
    (howes : ∀ i, Call.wp apply R (p i) (CommitsAs apply R (spec i)) [] [] d)
    (h : Relational.Reach (Step apply) Relational.Always (State.initial d p) σ) :
    Coherent apply R σ ∧ Owing apply R spec σ := by
  have hsafe : ∀ i, Call.Safe apply R (p i) d := fun i =>
    Call.wp_mono (fun _ _ _ _ h => h.committable) (howes i)
  refine ⟨Discipline.sound hinv hsafe h, ?_⟩
  induction h with
  | start =>
    intro i own held code hi
    cases hi
    exact howes i
  | next hreach _ hs ih => exact ih.step (Discipline.sound hinv hsafe hreach) hs

/-- **Every run is as good as its calls in the order of their commits.** -/
theorem Discipline.inOrder (hinv : R.Inv d)
    (howes : ∀ i, Call.wp apply R (p i) (CommitsAs apply R (spec i)) [] [] d)
    (h : Relational.Run (Step apply) Relational.Always (State.initial d p) steps σ) :
    InOrder spec d (commits steps) σ.committed := by
  induction h with
  | start => exact .start
  | next hrun _ hs ih =>
    obtain ⟨hcoherent, howing⟩ := Discipline.owing hinv howes hrun.reach
    rw [commits, List.filterMap_append, ← commits]
    rcases howing.cases hcoherent hs with ⟨a, hcommit, hspec⟩ | ⟨hnone, hsame⟩
    · simpa [hcommit] using ih.next hspec
    · simpa [hnone, hsame] using ih

/-- **What the specifications keep** under a condition, a run keeps whose commits meet it. -/
theorem Discipline.keeps {J : D → Prop} {G : ι → D → Prop} (hinv : R.Inv d)
    (howes : ∀ i, Call.wp apply R (p i) (CommitsAs apply R (spec i)) [] [] d)
    (h : Relational.Run (Step apply) Relational.Always (State.initial d p) steps σ)
    (hstart : J d) (hkeeps : ∀ i a d d', J d → G i d → spec i a d d' → J d')
    (hG : ∀ p ∈ steps, commit? p ≠ none → G p.2.1 p.1.committed) : J σ.committed := by
  induction h with
  | start => exact hstart
  | @next steps σ σ' i hrun _ hs ih =>
    obtain ⟨hcoherent, howing⟩ := Discipline.owing hinv howes hrun.reach
    have hbefore := ih fun p hp => hG p (List.mem_append_left _ hp)
    rcases howing.cases hcoherent hs with ⟨a, hcommit, hspec⟩ | ⟨-, hsame⟩
    · refine hkeeps i a _ _ hbefore ?_ hspec
      exact hG (σ, i, σ') (List.mem_append_right _ (List.mem_singleton_self _)) (by simp [hcommit])
    · rw [hsame]
      exact hbefore

end

end

end Concurrency
