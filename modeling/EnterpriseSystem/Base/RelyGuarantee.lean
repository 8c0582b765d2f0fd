import EnterpriseSystem.Base.ReadCommitted

/-!
# A rely-guarantee rule for READ COMMITTED calls

To prove something of every interleaving of any number of calls, one reasons
about each call alone, against an abstract description of the others.

* `Discipline` — the committed state satisfies `Inv`; while a call holds the
  locks `held`, the others change it only as `Rely held` says; a call may end
  only with an error that is `Allowed`.
* `wp` — what must hold of a call's own writes, its locks and the committed rows
  for the rest of a program to stay within the discipline, whatever the others
  do between its statements.  `Call.wp_bind` and `Call.wp_statement` compute it
  along a program, and `Robust.wp` skips the parts of it that do not matter.
* `Committable` — what a commit owes: it keeps `Inv`, and to a call that holds
  other locks it is a change that call relies on.
* `Discipline.sound` — if every call is `Safe`, then every reachable state
  satisfies the invariant and no call ever ends with a forbidden error;
  `Discipline.soundIf` is the same for the runs whose commits meet a condition.
-/

namespace Concurrency

/-- The rules a family of calls keeps to. -/
structure Discipline (D K E : Type) where
  /-- What holds of the committed rows. -/
  Inv : D → Prop
  /-- How the others may change them while a call holds these locks. -/
  Rely : List K → D → D → Prop
  /-- The errors a call may end with. -/
  Allowed : E → Prop
  refl : ∀ held d, Rely held d d
  trans : ∀ {held d d' d''}, Rely held d d' → Rely held d' d'' → Rely held d d''

/-- A statement about a call's own writes, the locks it holds and the committed
rows. -/
abbrev Assertion (D W K : Type) := List W → List K → D → Prop

section Rule

variable {D W K E α β : Type} (apply : D → W → D) (R : Discipline D K E)

/-- What must hold for the rest of a program to end in `Q`, whatever the others
do between its statements. -/
def Prog.wp : Prog (Stmt D W K E) Stmt.Res α → (α → Assertion D W K) → Assertion D W K
  | .ret a, Q => Q a
  | .op o k, Q => fun own held d => ∀ d', R.Rely held d d' → R.Inv d' →
      (k (o.answer (view apply d' own))).wp Q (own ++ o.writes (view apply d' own))
        (held ++ o.locks (view apply d' own)) d'

/-- An assertion that the others cannot falsify. -/
def Stable (A : Assertion D W K) : Prop :=
  ∀ {own held d d'}, A own held d → R.Rely held d d' → R.Inv d' → A own held d'

/-- What a call promises about its errors, given what it promises when it
returns. -/
def Outcome (Q : α → Assertion D W K) : Except E α → Assertion D W K
  | .ok a => Q a
  | .error e => fun _ _ _ => R.Allowed e

/-- The weakest precondition of a call. -/
def Call.wp (p : Call D W K E α) (Q : α → Assertion D W K) : Assertion D W K :=
  Prog.wp apply R (ExceptT.run p) (Outcome R Q)

/-- What a commit owes the others. -/
def Committable : Assertion D W K := fun own held d => ∀ d', R.Rely held d d' → R.Inv d' →
  R.Inv (view apply d' own) ∧
    ∀ held', (∀ k ∈ held, k ∉ held') → R.Rely held' d' (view apply d' own)

/-- A call that keeps to the discipline when it starts on the committed rows
`d`. -/
def Call.Safe (p : Call D W K E α) (d : D) : Prop :=
  Call.wp apply R p (fun _ => Committable apply R) [] [] d

/-- What a commit owes the others when its writes and the committed rows meet
the condition `G`. -/
def CommittableIf (G : List W → D → Prop) : Assertion D W K := fun own held d =>
  ∀ d', R.Rely held d d' → R.Inv d' → G own d' → R.Inv (view apply d' own) ∧
    ∀ held', (∀ k ∈ held, k ∉ held') → R.Rely held' d' (view apply d' own)

/-- A call that keeps to the discipline when its commit meets the condition. -/
def Call.SafeIf (G : List W → D → Prop) (p : Call D W K E α) (d : D) : Prop :=
  Call.wp apply R p (fun _ => CommittableIf apply R G) [] [] d

variable {apply R}

theorem stable_committableIf (G : List W → D → Prop) :
    Stable R (CommittableIf apply R G : Assertion D W K) := by
  intro own held d d' h hrely _ d'' hrely' hinv
  exact h d'' (R.trans hrely hrely') hinv

theorem committableIf_true {own : List W} {held : List K} {d : D} :
    CommittableIf apply R (fun _ _ => True) own held d ↔ Committable apply R own held d := by
  simp [CommittableIf, Committable]

theorem Prog.wp_bind (p : Prog (Stmt D W K E) Stmt.Res α)
    (f : α → Prog (Stmt D W K E) Stmt.Res β) (Q : β → Assertion D W K) :
    Prog.wp apply R (p.bind f) Q = Prog.wp apply R p fun a => Prog.wp apply R (f a) Q := by
  induction p with
  | ret a => rfl
  | op o k ih =>
    funext own held d
    simp only [Prog.op_bind, Prog.wp, ih]

/-- A weaker goal is easier to reach. -/
theorem Prog.wp_mono {p : Prog (Stmt D W K E) Stmt.Res α} {Q Q' : α → Assertion D W K}
    (hQ : ∀ a own held d, Q a own held d → Q' a own held d) {own : List W} {held : List K} {d : D}
    (h : Prog.wp apply R p Q own held d) : Prog.wp apply R p Q' own held d := by
  induction p generalizing own held d with
  | ret a => exact hQ a own held d h
  | op o k ih => exact fun d' hrely hinv => ih _ (h d' hrely hinv)

/-- The others cannot falsify a weakest precondition of a stable goal. -/
theorem Prog.stable_wp {p : Prog (Stmt D W K E) Stmt.Res α} {Q : α → Assertion D W K}
    (hQ : ∀ a, Stable R (Q a)) : Stable R (Prog.wp apply R p Q) := by
  cases p with
  | ret a => exact hQ a
  | op o k =>
    intro own held d d' h hrely _ d'' hrely' hinv
    exact h d'' (R.trans hrely hrely') hinv

@[simp] theorem Call.wp_pure (a : α) (Q : α → Assertion D W K) :
    Call.wp apply R (pure a) Q = Q a := rfl

@[simp] theorem Call.wp_throw (e : E) (Q : α → Assertion D W K) (own : List W) (held : List K)
    (d : D) : Call.wp apply R (throw e) Q own held d ↔ R.Allowed e := Iff.rfl

theorem Call.wp_evaluate {r : Except E α} {Q : α → Assertion D W K} {own : List W}
    {held : List K} {d : D} :
    Call.wp apply R (evaluate r) Q own held d ↔
      (∀ a, r = .ok a → Q a own held d) ∧ ∀ e, r = .error e → R.Allowed e := by
  cases r with
  | ok a =>
    constructor
    · refine fun h => ⟨fun a' ha' => ?_, (fun e he => nomatch he)⟩
      cases ha'
      exact h
    · exact fun h => h.1 a rfl
  | error e =>
    constructor
    · refine fun h => ⟨(fun a ha => nomatch ha), fun e' he' => ?_⟩
      cases he'
      exact h
    · exact fun h => h.2 e rfl

theorem Call.wp_onlyIf {c : Prop} [Decidable c] {p : Call D W K E Unit}
    {Q : Unit → Assertion D W K} {own : List W} {held : List K} {d : D} :
    Call.wp apply R (onlyIf c p) Q own held d ↔
      (c → Call.wp apply R p Q own held d) ∧ (¬ c → Q () own held d) := by
  unfold onlyIf
  split <;> simp [*]

/-- **The precondition of a sequence.** -/
theorem Call.wp_bind (p : Call D W K E α) (f : α → Call D W K E β) (Q : β → Assertion D W K) :
    Call.wp apply R (p >>= f) Q = Call.wp apply R p fun a => Call.wp apply R (f a) Q := by
  have hcont : ∀ r : Except E α, Prog.wp apply R (ExceptT.bindCont f r) (Outcome R Q) =
      Outcome R (fun a => Call.wp apply R (f a) Q) r := by
    intro r
    cases r <;> rfl
  change Prog.wp apply R ((ExceptT.run p).bind (ExceptT.bindCont f)) (Outcome R Q) = _
  rw [Prog.wp_bind, Call.wp]
  exact congrArg _ (funext hcont)

/-- **The precondition of a statement**: it runs on committed rows the others
may have changed since. -/
theorem Call.wp_statement {locks : D → List K} {exec : D → Except E (List W × β)}
    {Q : β → Assertion D W K} {own : List W} {held : List K} {d : D} :
    Call.wp apply R (statement locks exec) Q own held d ↔
      ∀ d', R.Rely held d d' → R.Inv d' →
        (∀ ws b, exec (view apply d' own) = .ok (ws, b) →
          Q b (own ++ ws) (held ++ locks (view apply d' own)) d') ∧
        ∀ e, exec (view apply d' own) = .error e → R.Allowed e := by
  refine forall_congr' fun d' => forall_congr' fun _ => forall_congr' fun _ => ?_
  simp only [Prog.wp, Stmt.answer, Stmt.writes]
  cases hx : exec (view apply d' own) with
  | error e => simp [Outcome]
  | ok r =>
    obtain ⟨ws, b⟩ := r
    constructor
    · intro h
      refine ⟨fun ws' b' heq => ?_, fun e heq => by cases heq⟩
      cases heq
      exact h
    · exact fun h => h.1 ws b rfl

theorem Call.wp_select {f : D → β} {Q : β → Assertion D W K} {own : List W} {held : List K}
    {d : D} : Call.wp apply R (select f) Q own held d ↔
      ∀ d', R.Rely held d d' → R.Inv d' → Q (f (view apply d' own)) own held d' := by
  rw [select, Call.wp_statement]
  simp

theorem Call.wp_mono {p : Call D W K E α} {Q Q' : α → Assertion D W K}
    (hQ : ∀ a own held d, Q a own held d → Q' a own held d) {own : List W} {held : List K} {d : D}
    (h : Call.wp apply R p Q own held d) : Call.wp apply R p Q' own held d := by
  refine Prog.wp_mono (fun r own held d hr => ?_) h
  cases r with
  | ok a => exact hQ a own held d hr
  | error e => exact hr

/-- **Calls that only touch what does not matter.**  An assertion that the
others cannot falsify, that more locks cannot falsify and that the writes the
call can make cannot falsify still holds after it. -/
theorem Call.wp_of_within {P : W → Prop} {A : Assertion D W K} {p : Call D W K E α}
    (hp : p.Within P R.Allowed) (hstable : Stable R A)
    (hwrites : ∀ {own held d ws ks}, A own held d → (∀ w ∈ ws, P w) → A (own ++ ws) (held ++ ks) d)
    {own : List W} {held : List K} {d : D} (h : A own held d) :
    Call.wp apply R p (fun _ => A) own held d := by
  have key : ∀ q : Prog (Stmt D W K E) Stmt.Res (Except E α), q.Within P R.Allowed →
      ∀ {own held d}, A own held d → Prog.wp apply R q (Outcome R fun _ => A) own held d := by
    intro q
    induction q with
    | ret r =>
      intro hq own held d hA
      cases r with
      | ok a => exact hA
      | error e => exact hq
    | op o k ih =>
      intro hq own held d hA d' hrely hinv
      obtain ⟨hw, hk⟩ := hq (view apply d' own)
      exact ih _ hk (hwrites (hstable hA hrely hinv) hw)
  exact key _ hp h

/-- An assertion that the others cannot falsify, nor more locks, nor writes in
`P`. -/
structure Robust (R : Discipline D K E) (P : W → Prop) (A : Assertion D W K) : Prop where
  stable : Stable R A
  append : ∀ {own held d ws ks}, A own held d → (∀ w ∈ ws, P w) → A (own ++ ws) (held ++ ks) d

/-- **A call within `P`** keeps a robust assertion. -/
theorem Robust.wp {P : W → Prop} {A : Assertion D W K} (hA : Robust R P A) {p : Call D W K E α}
    (hp : p.Within P R.Allowed) {own : List W} {held : List K} {d : D} (h : A own held d) :
    Call.wp apply R p (fun _ => A) own held d :=
  Call.wp_of_within (A := A) hp hA.stable hA.append h

end Rule

/-! ## Soundness -/

section Soundness

variable {ι D W K E α : Type} [DecidableEq ι] {apply : D → W → D} {R : Discipline D K E}

/-- What every reachable state satisfies. -/
structure Coherent (apply : D → W → D) (R : Discipline D K E) (σ : State ι D W K E α) : Prop where
  inv : R.Inv σ.committed
  code : ∀ i own held code, σ.calls i = .running own held code →
    Prog.wp apply R code (Outcome R fun _ => Committable apply R) own held σ.committed
  locks : ∀ i j, i ≠ j → ∀ k ∈ (σ.calls i).held, k ∉ (σ.calls j).held
  errors : ∀ i e, σ.calls i = .aborted (some e) → R.Allowed e

/-- What every state satisfies that is reached by commits which meet the
condition of their calls. -/
structure CoherentIf (apply : D → W → D) (R : Discipline D K E) (G : ι → List W → D → Prop)
    (σ : State ι D W K E α) : Prop where
  inv : R.Inv σ.committed
  code : ∀ i own held code, σ.calls i = .running own held code →
    Prog.wp apply R code (Outcome R fun _ => CommittableIf apply R (G i)) own held σ.committed
  locks : ∀ i j, i ≠ j → ∀ k ∈ (σ.calls i).held, k ∉ (σ.calls j).held
  errors : ∀ i e, σ.calls i = .aborted (some e) → R.Allowed e

/-- When call `i` has returned, its commit meets the condition. -/
def CommitsIf (G : ι → List W → D → Prop) (σ : State ι D W K E α) (i : ι) : Prop :=
  ∀ own held a, σ.calls i = .running own held (.ret (.ok a)) → G i own σ.committed

omit [DecidableEq ι] in
/-- Without a condition there is nothing to meet. -/
theorem coherentIf_true {σ : State ι D W K E α} :
    CoherentIf apply R (fun _ _ _ => True) σ ↔ Coherent apply R σ := by
  have hcode : ∀ {code : Prog (Stmt D W K E) Stmt.Res (Except E α)} {own held d},
      Prog.wp apply R code (Outcome R fun _ => CommittableIf apply R fun _ _ => True) own held d ↔
        Prog.wp apply R code (Outcome R fun _ => Committable apply R) own held d := by
    intro code own held d
    have hpost : (CommittableIf apply R fun _ _ => True : Assertion D W K) = Committable apply R :=
      funext fun _ => funext fun _ => funext fun _ => propext committableIf_true
    rw [hpost]
  constructor
  · exact fun h => ⟨h.inv, fun i own held code hi => hcode.1 (h.code i own held code hi), h.locks,
      h.errors⟩
  · exact fun h => ⟨h.inv, fun i own held code hi => hcode.2 (h.code i own held code hi), h.locks,
      h.errors⟩

/-- A call that takes no lock another one holds leaves the locks disjoint. -/
theorem locks_set {σ : State ι D W K E α} {i : ι} {c : CallState D W K E α}
    (h : ∀ i j, i ≠ j → ∀ k ∈ (σ.calls i).held, k ∉ (σ.calls j).held)
    (hc : ∀ k ∈ c.held, ∀ j, j ≠ i → k ∉ (σ.calls j).held) :
    ∀ a b, a ≠ b → ∀ k ∈ ((σ.set i c).calls a).held, k ∉ ((σ.set i c).calls b).held := by
  intro a b hab k hk hk'
  by_cases ha : a = i
  · subst ha
    rw [State.set_calls_self] at hk
    rw [State.set_calls_of_ne σ c (Ne.symm hab)] at hk'
    exact hc k hk b (Ne.symm hab) hk'
  · rw [State.set_calls_of_ne σ c ha] at hk
    by_cases hb : b = i
    · subst hb
      rw [State.set_calls_self] at hk'
      exact hc k hk' a ha hk
    · rw [State.set_calls_of_ne σ c hb] at hk'
      exact h a b hab k hk hk'

/-- Ending a call, with no lock and no change to the committed rows. -/
theorem CoherentIf.aborted {G : ι → List W → D → Prop} {σ : State ι D W K E α}
    (h : CoherentIf apply R G σ) (i : ι) {e : Option E} (he : ∀ e', e = some e' → R.Allowed e') :
    CoherentIf apply R G (σ.set i (.aborted e)) where
  inv := h.inv
  code := by
    intro j own held code hj
    by_cases hji : j = i
    · subst hji
      rw [State.set_calls_self] at hj
      cases hj
    · rw [State.set_calls_of_ne σ _ hji] at hj
      exact h.code j own held code hj
  locks := locks_set h.locks (by simp [CallState.held])
  errors := by
    intro j e' hj
    by_cases hji : j = i
    · subst hji
      rw [State.set_calls_self] at hj
      exact he e' (by injection hj)
    · rw [State.set_calls_of_ne σ _ hji] at hj
      exact h.errors j e' hj

/-- **One step keeps a state coherent.** -/
theorem CoherentIf.step {G : ι → List W → D → Prop} {σ σ' : State ι D W K E α} {i : ι}
    (h : CoherentIf apply R G σ) (hok : CommitsIf G σ i) (hs : Step apply σ i σ') :
    CoherentIf apply R G σ' := by
  cases hs with
  | @exec own held o k hi hfree =>
    refine ⟨h.inv, ?_, ?_, ?_⟩
    · intro j own' held' code' hj
      by_cases hji : j = i
      · subst hji
        rw [State.set_calls_self] at hj
        cases hj
        exact h.code j own held _ hi σ.committed (R.refl _ _) h.inv
      · rw [State.set_calls_of_ne σ _ hji] at hj
        exact h.code j own' held' code' hj
    · refine locks_set h.locks ?_
      intro l hl j hj
      rcases List.mem_append.1 hl with hl | hl
      · exact h.locks i j (Ne.symm hj) l (by rw [hi]; exact hl)
      · exact hfree j hj l hl
    · intro j e hj
      by_cases hji : j = i
      · subst hji
        rw [State.set_calls_self] at hj
        cases hj
      · rw [State.set_calls_of_ne σ _ hji] at hj
        exact h.errors j e hj
  | @commit own held a hi =>
    have hcommit : CommittableIf apply R (G i) own held σ.committed := h.code i own held _ hi
    obtain ⟨hinv, hothers⟩ := hcommit σ.committed (R.refl _ _) h.inv (hok own held a hi)
    refine ⟨hinv, ?_, locks_set h.locks (by simp [CallState.held]), ?_⟩
    · intro j own' held' code' hj
      by_cases hji : j = i
      · subst hji
        rw [State.set_calls_self] at hj
        cases hj
      · rw [State.set_calls_of_ne σ _ hji] at hj
        -- the commit is a change that call `j` relies on, since their locks are disjoint
        refine Prog.stable_wp ?_ (h.code j own' held' code' hj) (hothers held' ?_) hinv
        · intro r
          cases r with
          | ok a => exact stable_committableIf (G j)
          | error e => exact fun h _ _ => h
        · intro l hl hl'
          exact h.locks i j (Ne.symm hji) l (by rw [hi]; exact hl) (by rw [hj]; exact hl')
    · intro j e hj
      by_cases hji : j = i
      · subst hji
        rw [State.set_calls_self] at hj
        cases hj
      · rw [State.set_calls_of_ne σ _ hji] at hj
        exact h.errors j e hj
  | @abort own held e hi =>
    exact h.aborted i (fun e' he' => by cases he'; exact h.code i own held _ hi)
  | cancel _ => exact h.aborted i (fun e' he' => by cases he')

theorem Coherent.step {σ σ' : State ι D W K E α} {i : ι} (h : Coherent apply R σ)
    (hs : Step apply σ i σ') : Coherent apply R σ' :=
  coherentIf_true.1 ((coherentIf_true.2 h).step (fun _ _ _ _ => trivial) hs)

/-- A step changes the committed rows as a call without locks expects it. -/
theorem Coherent.rely {σ σ' : State ι D W K E α} {i : ι} (h : Coherent apply R σ)
    (hs : Step apply σ i σ') : R.Rely [] σ.committed σ'.committed := by
  cases hs with
  | @commit own held a hi =>
    have hcommit : Committable apply R own held σ.committed := h.code i own held _ hi
    exact (hcommit σ.committed (R.refl _ _) h.inv).2 [] fun _ _ => List.not_mem_nil
  | _ => exact R.refl _ _

/-- A run keeps a state coherent and changes the committed rows as a call
without locks expects it. -/
theorem Coherent.reach {σ σ' : State ι D W K E α} (h : Coherent apply R σ)
    (hreach : Relational.Reach (Step apply) Relational.Always σ σ') :
    Coherent apply R σ' ∧ R.Rely [] σ.committed σ'.committed := by
  induction hreach with
  | start => exact ⟨h, R.refl _ _⟩
  | next _ _ hs ih => exact ⟨ih.1.step hs, R.trans ih.2 (ih.1.rely hs)⟩

omit [DecidableEq ι] in
/-- Calls about to start on committed rows that satisfy the invariant are
coherent when they keep to the discipline. -/
theorem coherentIf_initial {G : ι → List W → D → Prop} {p : ι → Call D W K E α} {d : D}
    (hinv : R.Inv d) (hsafe : ∀ i, Call.SafeIf apply R (G i) (p i) d) :
    CoherentIf apply R G (State.initial d p) where
  inv := hinv
  code := by
    intro i own held code hi
    cases hi
    exact hsafe i
  locks := by
    intro i j _ k hk
    cases hk
  errors := by
    intro i e hi
    cases hi

/-- **Soundness.**  If the committed rows satisfy the invariant at the start and
every call keeps to the discipline, then in every reachable state of every
interleaving the committed rows satisfy the invariant and no call has ended
with a forbidden error. -/
theorem Discipline.sound {p : ι → Call D W K E α} {d : D} (hinv : R.Inv d)
    (hsafe : ∀ i, Call.Safe apply R (p i) d) {σ : State ι D W K E α}
    (h : Relational.Reach (Step apply) Relational.Always (State.initial d p) σ) :
    Coherent apply R σ := by
  have hstart : Coherent apply R (State.initial d p) :=
    coherentIf_true.1 (coherentIf_initial hinv fun i =>
      Call.wp_mono (fun _ _ _ _ => committableIf_true.2) (hsafe i))
  exact (hstart.reach h).1

/-- **Soundness under a condition**: the same along the runs whose commits meet
the conditions of their calls. -/
theorem Discipline.soundIf {G : ι → List W → D → Prop} {p : ι → Call D W K E α} {d : D}
    (hinv : R.Inv d) (hsafe : ∀ i, Call.SafeIf apply R (G i) (p i) d) {σ : State ι D W K E α}
    (h : Relational.Reach (Step apply) (CommitsIf G) (State.initial d p) σ) :
    CoherentIf apply R G σ :=
  h.invariant (coherentIf_initial hinv hsafe) CoherentIf.step

end Soundness

end Concurrency
