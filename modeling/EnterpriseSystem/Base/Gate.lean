import EnterpriseSystem.Base.Async

/-!
# A gate on the way

Functions interleaved on a shared store, all on their way to something that may be had once.  A
gate lies on the way, an operation that shuts behind whoever performs it.

* `Prog.Only` — what a program performs, whatever it is answered.
* `Task.Doomed` — a function that throws as long as the store is in some state; `doomed_of_run`.
* `Gate` — the operation, what is done behind it, and the store where it is shut.
* `Gate.Before`, `Gate.Behind` — the programs on either side of the gate; `before_bind` leads up
  to it, `before_gate` through it.
* `Gate.once` — where nobody goes through a shut gate, one function at most gets there.
-/

namespace Concurrency

open Relational

/-! ## What a program performs -/

section

variable {Op : Type} {Res : Op → Type} {α β : Type} {P : Op → Prop}

/-- Every operation that the program may come to perform is one of these. -/
def Prog.Only (P : Op → Prop) : Prog Op Res α → Prop
  | .ret _ => True
  | .op o k => P o ∧ ∀ r, (k r).Only P

theorem Prog.Only.mono {p : Prog Op Res α} {P' : Op → Prop} (hp : p.Only P)
    (hP : ∀ o, P o → P' o) : p.Only P' := by
  induction p with
  | ret a => trivial
  | op o k ih => exact ⟨hP o hp.1, fun r => ih r (hp.2 r)⟩

theorem Prog.Only.bind {p : Prog Op Res α} {f : α → Prog Op Res β} (hp : p.Only P)
    (hf : ∀ a, (f a).Only P) : (p.bind f).Only P := by
  induction p with
  | ret a => exact hf a
  | op o k ih => exact ⟨hp.1, fun r => ih r (hp.2 r)⟩

end

namespace Task

variable {Op : Type} {Ans : Op → Type} {E α β : Type} {P : Op → Prop}

/-- Every operation that the function may come to await is one of these. -/
def Only (P : Op → Prop) (p : Task Op Ans E α) : Prop := (ExceptT.run p).Only P

theorem Only.mono {p : Task Op Ans E α} {P' : Op → Prop} (hp : Only P p) (hP : ∀ o, P o → P' o) :
    Only P' p :=
  Prog.Only.mono hp hP

theorem Only.pure (a : α) : Only P (Pure.pure a : Task Op Ans E α) := trivial

theorem Only.throw (e : E) : Only P (MonadExcept.throw e : Task Op Ans E α) := trivial

theorem Only.ofExcept (r : Except E α) : Only P (Task.ofExcept r : Task Op Ans E α) := trivial

theorem Only.await {o : Op} (h : P o) : Only P (Task.await o : Task Op Ans E (Ans o)) :=
  ⟨h, fun _ => trivial⟩

theorem Only.bind {p : Task Op Ans E α} {f : α → Task Op Ans E β} (hp : Only P p)
    (hf : ∀ a, Only P (f a)) : Only P (p >>= f) := by
  refine Prog.Only.bind hp fun r => ?_
  cases r with
  | error e => trivial
  | ok a => exact hf a

theorem Only.tryCatch {p : Task Op Ans E α} {h : E → Task Op Ans E α} (hp : Only P p)
    (hh : ∀ e, Only P (h e)) : Only P (MonadExcept.tryCatch p h) := by
  refine Prog.Only.bind hp fun r => ?_
  cases r with
  | error e => exact hh e
  | ok a => trivial

theorem Only.ite {c : Prop} [Decidable c] {p p' : Task Op Ans E α} (hp : Only P p)
    (hp' : Only P p') : Only P (if c then p else p') := by
  by_cases hc : c
  · simpa [hc] using hp
  · simpa [hc] using hp'

end Task

/-! ## What cannot succeed -/

/-- As long as the store is in `P`, whatever the others do, the program ends with an error. -/
def Prog.Doomed {S Op : Type} {Ans : Op → Type} {E α : Type}
    (exec : (o : Op) → S → Except E (Ans o) × S) (P : S → Prop) :
    Prog Op (fun o => Except E (Ans o)) (Except E α) → Prop
  | .ret r => ∃ e, r = .error e
  | .op o k => ∀ s, P s → (k (exec o s).1).Doomed exec P

namespace Task

variable {S Op : Type} {Ans : Op → Type} {E α β : Type} {exec : (o : Op) → S → Except E (Ans o) × S}
  {P : S → Prop}

/-- As long as the store is in `P`, whatever the others do, the function throws. -/
def Doomed (exec : (o : Op) → S → Except E (Ans o) × S) (P : S → Prop) (p : Task Op Ans E α) :
    Prop :=
  (ExceptT.run p).Doomed exec P

theorem Doomed.throw (e : E) : Doomed exec P (MonadExcept.throw e : Task Op Ans E α) := ⟨e, rfl⟩

/-- A doomed first half. -/
theorem Doomed.bind {p : Task Op Ans E α} (hp : Doomed exec P p) (f : α → Task Op Ans E β) :
    Doomed exec P (p >>= f) := by
  have key : ∀ q : Prog Op (fun o => Except E (Ans o)) (Except E α), q.Doomed exec P →
      (q.bind (ExceptT.bindCont f)).Doomed exec P := by
    intro q
    induction q with
    | ret r =>
      rintro ⟨e, rfl⟩
      exact ⟨e, rfl⟩
    | op o k ih => exact fun hq s hs => ih _ (hq s hs)
  exact key _ hp

/-- A second half that is doomed after every answer to the operation in front of it. -/
theorem doomed_await_bind {o : Op} {f : Ans o → Task Op Ans E α}
    (h : ∀ s, P s → ∀ a, (exec o s).1 = .ok a → Doomed exec P (f a)) :
    Doomed exec P (Task.await o >>= f) := by
  intro s hs
  cases hr : (exec o s).1 with
  | error e => exact ⟨e, rfl⟩
  | ok a => exact h s hs a hr

end Task

/-- **A doomed function never returns** in a run through states in `P`. -/
theorem System.doomed_of_run {ι S Op : Type} {Ans : Op → Type} {E α : Type} [DecidableEq ι]
    {exec : (o : Op) → S → Except E (Ans o) × S} {around : S → S → Prop}
    {ok : System ι S Op Ans E α → System.Label ι → Prop} {P : S → Prop} {i : ι}
    {steps : List (System ι S Op Ans E α × System.Label ι × System ι S Op Ans E α)}
    {σ₀ σ : System ι S Op Ans E α} (hdoomed : (σ₀.tasks i).Doomed exec P)
    (h : Run (System.Step exec around) ok σ₀ steps σ) (hsteps : ∀ p ∈ steps, P p.1.shared) :
    (σ.tasks i).Doomed exec P := by
  induction h with
  | start => exact hdoomed
  | @next steps σ₁ σ₂ l _ _ hstep ih =>
    have hbefore := ih fun p hp => hsteps p (List.mem_append_left _ hp)
    have hhere : P σ₁.shared := hsteps _ (List.mem_append_right _ (List.mem_singleton_self _))
    cases l with
    | none => exact hstep.of_none.2 ▸ hbefore
    | some j =>
      obtain ⟨o, k, hop, -, hnext, hothers⟩ := hstep.of_some
      by_cases hij : i = j
      · subst hij
        rw [hop] at hbefore
        exact hnext ▸ hbefore _ hhere
      · exact hothers i hij ▸ hbefore

/-! ## The gate -/

/-- An operation that shuts behind whoever performs it. -/
structure Gate (S Op : Type) where
  /-- Going through the gate. -/
  passes : Op → Bool
  /-- What is done behind it. -/
  issues : Op → Bool
  Shut : S → Prop
  /-- What everybody keeps to. -/
  Rely : S → S → Prop
  refl : ∀ s, Rely s s
  trans : ∀ {s s' s''}, Rely s s' → Rely s' s'' → Rely s s''
  stays : ∀ {s s'}, Rely s s' → Shut s → Shut s'

namespace Gate

variable {S Op : Type} {Ans : Op → Type} {E α β : Type} (g : Gate S Op)
  (exec : (o : Op) → S → Except E (Ans o) × S) (Wins : α → Prop)

/-- Behind the gate: what is done there is done once, if it still may be. -/
def Behind : Bool → Prog Op (fun o => Except E (Ans o)) (Except E α) → Prop
  | _, .ret _ => True
  | may, .op o k => g.passes o = false ∧ (∀ s, g.Rely s (exec o s).2) ∧
      (g.issues o = true → may = true) ∧ ∀ r, Behind (may && !g.issues o) (k r)

/-- Before the gate: what is to be had cannot be had without going through. -/
def Before : Prog Op (fun o => Except E (Ans o)) (Except E α) → S → Prop
  | .ret r, _ => ∀ a, r = .ok a → ¬ Wins a
  | .op o k, s => ∀ s', g.Rely s s' → g.issues o = false ∧ g.Rely s' (exec o s').2 ∧
      (Before (k (exec o s').1) (exec o s').2 ∨
        g.passes o = true ∧ g.Shut (exec o s').2 ∧ g.Behind exec true (k (exec o s').1))

/-- On the way to the gate: when the program returns, `Q` holds. -/
def Leads (Q : β → S → Prop) : Prog Op (fun o => Except E (Ans o)) β → S → Prop
  | .ret b, s => Q b s
  | .op o k, s => ∀ s', g.Rely s s' → g.issues o = false ∧ g.Rely s' (exec o s').2 ∧
      Leads Q (k (exec o s').1) (exec o s').2

variable {g exec Wins}

/-- The others take nobody through the gate. -/
theorem Before.stable {p : Prog Op (fun o => Except E (Ans o)) (Except E α)} {s s' : S}
    (h : g.Before exec Wins p s) (hrely : g.Rely s s') : g.Before exec Wins p s' := by
  cases p with
  | ret r => exact h
  | op o k => exact fun s'' hlater => h s'' (g.trans hrely hlater)

theorem leads_of_only {Q : β → S → Prop} {p : Prog Op (fun o => Except E (Ans o)) β} {s : S}
    (hp : p.Only fun o => g.issues o = false ∧ ∀ s, g.Rely s (exec o s).2)
    (hQ : ∀ b s', g.Rely s s' → Q b s') : g.Leads exec Q p s := by
  induction p generalizing s with
  | ret b => exact hQ b s (g.refl s)
  | op o k ih =>
    intro s' hrely
    have hkeeps := hp.1.2 s'
    refine ⟨hp.1.1, hkeeps, ih _ (hp.2 _) fun b s'' hlater => ?_⟩
    exact hQ b s'' (g.trans hrely (g.trans hkeeps hlater))

theorem Leads.mono {Q Q' : β → S → Prop} {p : Prog Op (fun o => Except E (Ans o)) β} {s : S}
    (h : g.Leads exec Q p s) (hQ : ∀ b s, Q b s → Q' b s) : g.Leads exec Q' p s := by
  induction p generalizing s with
  | ret b => exact hQ b s h
  | op o k ih =>
    intro s' hrely
    obtain ⟨hissues, hkeeps, hrest⟩ := h s' hrely
    exact ⟨hissues, hkeeps, ih _ hrest⟩

theorem before_prog_bind {p : Prog Op (fun o => Except E (Ans o)) β}
    {f : β → Prog Op (fun o => Except E (Ans o)) (Except E α)} {s : S}
    (h : g.Leads exec (fun b s => g.Before exec Wins (f b) s) p s) :
    g.Before exec Wins (p.bind f) s := by
  induction p generalizing s with
  | ret b => exact h
  | op o k ih =>
    intro s' hrely
    obtain ⟨hissues, hkeeps, hrest⟩ := h s' hrely
    exact ⟨hissues, hkeeps, Or.inl (ih _ hrest)⟩

/-- **Up to the gate**: a function that leads to where the rest of it is before the gate. -/
theorem before_bind {p : Task Op Ans E β} {f : β → Task Op Ans E α} {s : S}
    (h : g.Leads exec (fun r s => ∀ b, r = .ok b → g.Before exec Wins (ExceptT.run (f b)) s)
      (ExceptT.run p) s) : g.Before exec Wins (ExceptT.run (p >>= f)) s := by
  refine before_prog_bind (h.mono fun r s hrest => ?_)
  cases r with
  | error e =>
    intro a ha
    cases ha
  | ok b => exact hrest b rfl

/-- **Through the gate**: the operation fails, or it shuts the gate and the rest is behind it. -/
theorem before_gate {o : Op} {f : Ans o → Task Op Ans E α} {s : S} (hissues : g.issues o = false)
    (hgate : ∀ s', g.Rely s s' → g.Rely s' (exec o s').2 ∧
      ((∃ e, (exec o s').1 = .error e) ∨ g.passes o = true ∧ g.Shut (exec o s').2))
    (hbehind : ∀ b, g.Behind exec true (ExceptT.run (f b))) :
    g.Before exec Wins (ExceptT.run (Task.await o >>= f)) s := by
  intro s' hrely
  obtain ⟨hkeeps, hgate⟩ := hgate s' hrely
  refine ⟨hissues, hkeeps, ?_⟩
  cases hr : (exec o s').1 with
  | error e =>
    left
    intro a ha
    cases ha
  | ok b =>
    obtain ⟨e, he⟩ | ⟨hpasses, hshut⟩ := hgate
    · rw [hr] at he
      cases he
    · exact Or.inr ⟨hpasses, hshut, hbehind b⟩

/-! ## Who gets there -/

section

variable {ι : Type}

/-- Nobody goes through the gate where it is shut. -/
def Respected (g : Gate S Op) (σ : System ι S Op Ans E α) (l : System.Label ι) : Prop :=
  ∀ i o, l = some i → σ.Performs i o → g.passes o = true → ¬ g.Shut σ.shared

/-- A step that does what is done behind the gate. -/
def Issues (g : Gate S Op)
    (p : System ι S Op Ans E α × System.Label ι × System ι S Op Ans E α) : Prop :=
  ∃ i o, p.2.1 = some i ∧ p.1.Performs i o ∧ g.issues o = true

/-- All functions are before the gate, or one of them has gone through. -/
inductive Situation (g : Gate S Op) (exec : (o : Op) → S → Except E (Ans o) × S) (Wins : α → Prop)
    (steps : List (System ι S Op Ans E α × System.Label ι × System ι S Op Ans E α))
    (σ : System ι S Op Ans E α) : Prop where
  | nobody (hbefore : ∀ i, g.Before exec Wins (σ.tasks i) σ.shared)
      (hnone : ∀ p ∈ steps, ¬ g.Issues p)
  | passed (i : ι) (may : Bool) (hshut : g.Shut σ.shared)
      (hbehind : g.Behind exec may (σ.tasks i))
      (hothers : ∀ j, j ≠ i → g.Before exec Wins (σ.tasks j) σ.shared)
      (hnone : may = true → ∀ p ∈ steps, ¬ g.Issues p)
      (honce : steps.Pairwise fun p q => ¬ (g.Issues p ∧ g.Issues q))

variable {steps : List (System ι S Op Ans E α × System.Label ι × System ι S Op Ans E α)}
  {σ σ' : System ι S Op Ans E α} {l : System.Label ι}

/-- What a step does is what the function that moves awaits. -/
theorem not_issues {i : ι} {o : Op} {k : Except E (Ans o) → Prog Op _ (Except E α)}
    (hop : σ.tasks i = .op o k) (h : g.issues o = false) : ¬ g.Issues (σ, some i, σ') := by
  rintro ⟨j, o', hij, ⟨k', hop'⟩, hissues⟩
  obtain rfl : i = j := Option.some.inj hij
  rw [hop] at hop'
  cases hop'
  simp [h] at hissues

theorem not_issues_around : ¬ g.Issues (σ, none, σ') := by
  rintro ⟨j, o, hnone, -⟩
  cases hnone

/-- No step of a list is one that issues, and neither is the next one. -/
theorem none_concat {p : System ι S Op Ans E α × System.Label ι × System ι S Op Ans E α}
    (h : ∀ p ∈ steps, ¬ g.Issues p) (hp : ¬ g.Issues p) : ∀ q ∈ steps ++ [p], ¬ g.Issues q := by
  intro q hq
  rcases List.mem_append.1 hq with hq | hq
  · exact h q hq
  · rw [List.mem_singleton.1 hq]
    exact hp

theorem once_concat {p : System ι S Op Ans E α × System.Label ι × System ι S Op Ans E α}
    (h : steps.Pairwise fun p q => ¬ (g.Issues p ∧ g.Issues q))
    (hp : g.Issues p → ∀ q ∈ steps, ¬ g.Issues q) :
    (steps ++ [p]).Pairwise fun p q => ¬ (g.Issues p ∧ g.Issues q) := by
  refine List.pairwise_append.2 ⟨h, List.pairwise_singleton _ _, fun q hq p' hp' hboth => ?_⟩
  rw [List.mem_singleton.1 hp'] at hboth
  exact hp hboth.2 q hq hboth.1

variable [DecidableEq ι]

/-- A function that moves before the gate stays there, or goes through. -/
theorem before_moves {i : ι} (hbefore : g.Before exec Wins (σ.tasks i) σ.shared)
    (h : System.Step exec g.Rely σ (some i) σ') :
    ¬ g.Issues (σ, some i, σ') ∧ g.Rely σ.shared σ'.shared ∧
      (∀ j, j ≠ i → σ'.tasks j = σ.tasks j) ∧
      (g.Before exec Wins (σ'.tasks i) σ'.shared ∨
        (∃ o, σ.Performs i o ∧ g.passes o = true) ∧ g.Shut σ'.shared ∧
          g.Behind exec true (σ'.tasks i)) := by
  obtain ⟨o, k, hop, hshared, hnext, hothers⟩ := h.of_some
  rw [hop] at hbefore
  obtain ⟨hissues, hkeeps, hgate⟩ := hbefore σ.shared (g.refl _)
  rw [← hshared, ← hnext] at hgate
  rw [← hshared] at hkeeps
  refine ⟨not_issues hop hissues, hkeeps, hothers, hgate.imp_right fun hpassed => ?_⟩
  exact ⟨⟨o, ⟨k, hop⟩, hpassed.1⟩, hpassed.2⟩

/-- A function that moves behind the gate stays there. -/
theorem behind_moves {i : ι} {may : Bool} (hbehind : g.Behind exec may (σ.tasks i))
    (h : System.Step exec g.Rely σ (some i) σ') :
    g.Rely σ.shared σ'.shared ∧ (∀ j, j ≠ i → σ'.tasks j = σ.tasks j) ∧
      (g.Issues (σ, some i, σ') → may = true) ∧
        ∃ may', g.Behind exec may' (σ'.tasks i) ∧
          (may' = true → may = true ∧ ¬ g.Issues (σ, some i, σ')) := by
  obtain ⟨o, k, hop, hshared, hnext, hothers⟩ := h.of_some
  rw [hop] at hbehind
  obtain ⟨-, hkeeps, hmay, hrest⟩ := hbehind
  rw [hshared, hnext]
  refine ⟨hkeeps _, hothers, ?_, _, hrest _, ?_⟩
  · rintro ⟨j, o', hij, ⟨k', hop'⟩, hissues⟩
    obtain rfl : i = j := Option.some.inj hij
    rw [hop] at hop'
    cases hop'
    exact hmay hissues
  · intro hmay'
    simp only [Bool.and_eq_true, Bool.not_eq_true'] at hmay'
    exact ⟨hmay'.1, not_issues hop hmay'.2⟩

/-- **One step**, where nobody goes through a shut gate. -/
theorem Situation.step (h : Situation g exec Wins steps σ) (hok : g.Respected σ l)
    (hstep : System.Step exec g.Rely σ l σ') :
    Situation g exec Wins (steps ++ [(σ, l, σ')]) σ' := by
  cases l with
  | none =>
    obtain ⟨hrely, htasks⟩ := hstep.of_none
    cases h with
    | nobody hbefore hnone =>
      exact .nobody (fun i => htasks ▸ (hbefore i).stable hrely)
        (none_concat hnone not_issues_around)
    | passed i may hshut hbehind hothers hnone honce =>
      exact .passed i may (g.stays hrely hshut) (htasks ▸ hbehind)
        (fun j hj => htasks ▸ (hothers j hj).stable hrely)
        (fun hmay => none_concat (hnone hmay) not_issues_around)
        (once_concat honce fun hissues => absurd hissues not_issues_around)
  | some j =>
    cases h with
    | nobody hbefore hnone =>
      obtain ⟨hissues, hrely, hsame, hmoved⟩ := before_moves (hbefore j) hstep
      have hothers : ∀ i, i ≠ j → g.Before exec Wins (σ'.tasks i) σ'.shared := fun i hi => by
        rw [hsame i hi]
        exact (hbefore i).stable hrely
      have hconcat := none_concat hnone hissues
      rcases hmoved with hmoved | ⟨-, hshut, hbehind⟩
      · refine .nobody (fun i => ?_) hconcat
        by_cases hij : i = j
        · exact hij ▸ hmoved
        · exact hothers i hij
      · refine .passed j true hshut hbehind hothers (fun _ => hconcat) ?_
        exact List.pairwise_of_forall_mem_list fun p hp q _ hboth => hconcat p hp hboth.1
    | passed i may hshut hbehind hothers hnone honce =>
      by_cases hij : j = i
      · -- the one that has gone through moves on
        subst hij
        obtain ⟨hrely, hsame, hmay, may', hbehind', hmay'⟩ := behind_moves hbehind hstep
        refine .passed j may' (g.stays hrely hshut) hbehind' (fun i hi => ?_) (fun h => ?_)
          (once_concat honce fun hissues => hnone (hmay hissues))
        · rw [hsame i hi]
          exact (hothers i hi).stable hrely
        · exact none_concat (hnone (hmay' h).1) (hmay' h).2
      · obtain ⟨hissues, hrely, hsame, hmoved⟩ := before_moves (hothers j hij) hstep
        have hstays : g.Before exec Wins (σ'.tasks j) σ'.shared := by
          rcases hmoved with hmoved | ⟨⟨o, hperforms, hpasses⟩, -⟩
          · exact hmoved
          · exact absurd hshut (hok j o rfl hperforms hpasses)
        refine .passed i may (g.stays hrely hshut) ?_ (fun i' hi' => ?_)
          (fun hmay => none_concat (hnone hmay) hissues)
          (once_concat honce fun h => absurd h hissues)
        · rw [hsame i (Ne.symm hij)]
          exact hbehind
        · by_cases hj : i' = j
          · exact hj ▸ hstays
          · rw [hsame i' hj]
            exact (hothers i' hi').stable hrely

/-- **Once**: in a run in which nobody goes through a shut gate, one function at most gets what
there is to be had, and what is done behind the gate is done at most once. -/
theorem once {s : S} {tasks : ι → Task Op Ans E α}
    {ok : System ι S Op Ans E α → System.Label ι → Prop}
    (hbefore : ∀ i, g.Before exec Wins (ExceptT.run (tasks i)) s)
    (hok : ∀ σ l, ok σ l → g.Respected σ l)
    (h : Run (System.Step exec g.Rely) ok (System.start s tasks) steps σ) :
    (∀ i j a b, σ.result? i = some (.ok a) → Wins a → σ.result? j = some (.ok b) → Wins b →
      i = j) ∧ steps.Pairwise fun p q => ¬ (g.Issues p ∧ g.Issues q) := by
  have hsituation : Situation g exec Wins steps σ :=
    h.invariant (.nobody hbefore (by simp)) fun _ hinv hl hstep => hinv.step (hok _ _ hl) hstep
  have hwins : ∀ i a, g.Before exec Wins (σ.tasks i) σ.shared → σ.result? i = some (.ok a) →
      ¬ Wins a := by
    intro i a hi hresult
    cases hp : σ.tasks i with
    | op o k => simp [System.result?, Prog.result?, hp] at hresult
    | ret r =>
      rw [hp] at hi
      simp only [System.result?, Prog.result?, hp, Option.some.injEq] at hresult
      exact hi a hresult
  cases hsituation with
  | nobody hbefore hnone =>
    refine ⟨fun i j a b hi ha => absurd ha (hwins i a (hbefore i) hi), ?_⟩
    exact List.pairwise_of_forall_mem_list fun p hp q _ hboth => hnone p hp hboth.1
  | passed i may _ _ hothers _ honce =>
    refine ⟨fun j j' a b hj ha hj' hb => ?_, honce⟩
    have hpassed : ∀ i' c, σ.result? i' = some (.ok c) → Wins c → i' = i := by
      intro i' c hi' hc
      by_contra hne
      exact hwins i' c (hothers i' hne) hi' hc
    rw [hpassed j a hj ha, hpassed j' b hj' hb]

end

end Gate

end Concurrency
