import EnterpriseSystem.Base.RelyGuarantee

/-!
# Between the statements of a call

A weakest precondition says how a call ends.  What a call holds or has written
while it is still going on, when it may be waiting or about to be cancelled, needs
an assertion before every statement.

* `Prog.Along` — an assertion holds before each statement, whatever the others do,
  and the program ends in `Q`; `Call.along_bind` and its companions compute it.
* `Call.Each` — what all the statements of a call have in common, whatever they
  read; `Call.along_of_each` uses it for the calls inside that do not matter.
* `Call.WithinIf` — what a call can write as long as all it reads satisfies `V`.
* `Discipline.along` — along every interleaving of calls that keep to the
  discipline, a call that is still running is where the assertion says.
-/

namespace Concurrency

section Rule

variable {D W K E α β : Type} (apply : D → W → D) (R : Discipline D K E)

/-- `N` holds before each statement of a program and `Q` at its end, whatever the
others do between its statements. -/
def Prog.Along (N : Stmt D W K E → Assertion D W K) :
    Prog (Stmt D W K E) Stmt.Res α → (α → Assertion D W K) → Assertion D W K
  | .ret a, Q => Q a
  | .op o k, Q => fun own held d => ∀ d', R.Rely held d d' → R.Inv d' → N o own held d' ∧
      (k (o.answer (view apply d' own))).Along N Q (own ++ o.writes (view apply d' own))
        (held ++ o.locks (view apply d' own)) d'

/-- The same for a call, which may also end with an error. -/
def Call.Along (N : Stmt D W K E → Assertion D W K) (p : Call D W K E α)
    (Q : α → Assertion D W K) : Assertion D W K :=
  Prog.Along apply R N (ExceptT.run p) (Outcome R Q)

variable {apply R} {N : Stmt D W K E → Assertion D W K}

theorem Prog.along_bind (p : Prog (Stmt D W K E) Stmt.Res α)
    (f : α → Prog (Stmt D W K E) Stmt.Res β) (Q : β → Assertion D W K) :
    Prog.Along apply R N (p.bind f) Q =
      Prog.Along apply R N p fun a => Prog.Along apply R N (f a) Q := by
  induction p with
  | ret a => rfl
  | op o k ih =>
    funext own held d
    simp only [Prog.op_bind, Prog.Along, ih]

theorem Prog.along_mono {p : Prog (Stmt D W K E) Stmt.Res α} {Q Q' : α → Assertion D W K}
    (hQ : ∀ a own held d, Q a own held d → Q' a own held d) {own : List W} {held : List K} {d : D}
    (h : Prog.Along apply R N p Q own held d) : Prog.Along apply R N p Q' own held d := by
  induction p generalizing own held d with
  | ret a => exact hQ a own held d h
  | op o k ih => exact fun d' hrely hinv => ⟨(h d' hrely hinv).1, ih _ (h d' hrely hinv).2⟩

/-- The others cannot falsify it when they cannot falsify the goal. -/
theorem Prog.stable_along {p : Prog (Stmt D W K E) Stmt.Res α} {Q : α → Assertion D W K}
    (hQ : ∀ a, Stable R (Q a)) : Stable R (Prog.Along apply R N p Q) := by
  cases p with
  | ret a => exact hQ a
  | op o k =>
    intro own held d d' h hrely _ d'' hrely' hinv
    exact h d'' (R.trans hrely hrely') hinv

/-- What holds along the way is more than how it ends. -/
theorem Prog.wp_of_along {p : Prog (Stmt D W K E) Stmt.Res α} {Q : α → Assertion D W K}
    {own : List W} {held : List K} {d : D} (h : Prog.Along apply R N p Q own held d) :
    Prog.wp apply R p Q own held d := by
  induction p generalizing own held d with
  | ret a => exact h
  | op o k ih => exact fun d' hrely hinv => ih _ (h d' hrely hinv).2

theorem Call.wp_of_along {p : Call D W K E α} {Q : α → Assertion D W K} {own : List W}
    {held : List K} {d : D} (h : Call.Along apply R N p Q own held d) :
    Call.wp apply R p Q own held d :=
  Prog.wp_of_along h

/-- Without an assertion on the way there is only the end. -/
theorem Call.along_of_wp {p : Call D W K E α} {Q : α → Assertion D W K} {own : List W}
    {held : List K} {d : D} (h : Call.wp apply R p Q own held d) :
    Call.Along apply R (fun _ _ _ _ => True) p Q own held d := by
  have key : ∀ (q : Prog (Stmt D W K E) Stmt.Res (Except E α)) {own held d},
      Prog.wp apply R q (Outcome R Q) own held d →
      Prog.Along apply R (fun _ _ _ _ => True) q (Outcome R Q) own held d := by
    intro q
    induction q with
    | ret r => exact fun h => h
    | op o k ih => exact fun h d' hrely hinv => ⟨trivial, ih _ (h d' hrely hinv)⟩
  exact key _ h

@[simp] theorem Call.along_pure (a : α) (Q : α → Assertion D W K) :
    Call.Along apply R N (pure a) Q = Q a := rfl

@[simp] theorem Call.along_throw (e : E) (Q : α → Assertion D W K) (own : List W) (held : List K)
    (d : D) : Call.Along apply R N (throw e) Q own held d ↔ R.Allowed e := Iff.rfl

theorem Call.along_evaluate {r : Except E α} {Q : α → Assertion D W K} {own : List W}
    {held : List K} {d : D} (hok : ∀ a, r = .ok a → Q a own held d)
    (herr : ∀ e, r = .error e → R.Allowed e) : Call.Along apply R N (evaluate r) Q own held d := by
  cases r with
  | ok a => exact hok a rfl
  | error e => exact herr e rfl

theorem Call.along_onlyIf {c : Prop} [Decidable c] {p : Call D W K E Unit}
    {Q : Unit → Assertion D W K} {own : List W} {held : List K} {d : D}
    (hp : c → Call.Along apply R N p Q own held d) (hskip : ¬ c → Q () own held d) :
    Call.Along apply R N (onlyIf c p) Q own held d := by
  unfold onlyIf
  split
  · rename_i hc
    exact hp hc
  · rename_i hc
    exact hskip hc

/-- **The rule of a sequence.** -/
theorem Call.along_bind {p : Call D W K E α} {f : α → Call D W K E β} {Q : β → Assertion D W K}
    {own : List W} {held : List K} {d : D}
    (h : Call.Along apply R N p (fun a => Call.Along apply R N (f a) Q) own held d) :
    Call.Along apply R N (p >>= f) Q own held d := by
  have hcont : ∀ r : Except E α, Prog.Along apply R N (ExceptT.bindCont f r) (Outcome R Q) =
      Outcome R (fun a => Call.Along apply R N (f a) Q) r := by
    intro r
    cases r <;> rfl
  change Prog.Along apply R N ((ExceptT.run p).bind (ExceptT.bindCont f)) (Outcome R Q) own held d
  rw [Prog.along_bind, funext hcont]
  exact h

/-- **The rule of a statement.** -/
theorem Call.along_statement {locks : D → List K} {exec : D → Except E (List W × β)}
    {Q : β → Assertion D W K} {own : List W} {held : List K} {d : D}
    (h : ∀ d', R.Rely held d d' → R.Inv d' → N ⟨β, locks, exec⟩ own held d' ∧
      (∀ ws b, exec (view apply d' own) = .ok (ws, b) →
        Q b (own ++ ws) (held ++ locks (view apply d' own)) d') ∧
      ∀ e, exec (view apply d' own) = .error e → R.Allowed e) :
    Call.Along apply R N (statement locks exec) Q own held d := by
  intro d' hrely hinv
  obtain ⟨hN, hok, herr⟩ := h d' hrely hinv
  refine ⟨hN, ?_⟩
  simp only [Stmt.answer, Stmt.writes]
  cases hx : exec (view apply d' own) with
  | error e => exact herr e hx
  | ok r => exact hok r.1 r.2 hx

theorem Call.along_select {f : D → β} {Q : β → Assertion D W K} {own : List W} {held : List K}
    {d : D}
    (h : ∀ d', R.Rely held d d' → R.Inv d' →
      N ⟨β, fun _ => [], fun d => .ok ([], f d)⟩ own held d' ∧ Q (f (view apply d' own)) own held d') :
    Call.Along apply R N (select f) Q own held d := by
  refine Call.along_statement fun d' hrely hinv => ?_
  obtain ⟨hN, hQ⟩ := h d' hrely hinv
  refine ⟨hN, fun ws b hexec => ?_, fun e hexec => by cases hexec⟩
  cases hexec
  rw [List.append_nil, List.append_nil]
  exact hQ

theorem Call.along_mono {p : Call D W K E α} {Q Q' : α → Assertion D W K} {own : List W}
    {held : List K} {d : D} (h : Call.Along apply R N p Q own held d)
    (hQ : ∀ a own held d, Q a own held d → Q' a own held d) :
    Call.Along apply R N p Q' own held d := by
  refine Prog.along_mono (fun r own held d hr => ?_) h
  cases r with
  | ok a => exact hQ a own held d hr
  | error e => exact hr

/-! ## What all statements have in common -/

/-- Every statement of a program satisfies `S` and every error it ends with
satisfies `B`, whatever it reads. -/
def Prog.Each (S : Stmt D W K E → Prop) (B : E → Prop) :
    Prog (Stmt D W K E) Stmt.Res (Except E α) → Prop
  | .ret r => Ends B r
  | .op o k => S o ∧ ∀ d, (k (o.answer d)).Each S B

/-- Every statement of a call satisfies `S` and every error it raises satisfies
`B`, whatever it reads. -/
def Call.Each (S : Stmt D W K E → Prop) (B : E → Prop) (p : Call D W K E α) : Prop :=
  Prog.Each S B (ExceptT.run p)

variable {S : Stmt D W K E → Prop} {B : E → Prop}

theorem Call.each_pure (a : α) : Call.Each S B (pure a : Call D W K E α) := trivial

theorem Call.Each.bind {p : Call D W K E α} {f : α → Call D W K E β} (hp : p.Each S B)
    (hf : ∀ a, Call.Each S B (f a)) : Call.Each S B (p >>= f) := by
  have key : ∀ q : Prog (Stmt D W K E) Stmt.Res (Except E α), q.Each S B →
      (q.bind (ExceptT.bindCont f)).Each S B := by
    intro q
    induction q with
    | ret r =>
      intro hr
      cases r with
      | ok a => exact hf a
      | error e => exact hr
    | op o k ih => exact fun hq => ⟨hq.1, fun d => ih _ (hq.2 d)⟩
  exact key _ hp

theorem Call.each_statement {locks : D → List K} {exec : D → Except E (List W × β)}
    (hS : S ⟨β, locks, exec⟩) (herr : ∀ d e, exec d = .error e → B e) :
    Call.Each S B (statement locks exec) := by
  refine ⟨hS, fun d => ?_⟩
  simp only [Stmt.answer]
  cases hx : exec d with
  | error e => exact herr d e hx
  | ok r => trivial

theorem Call.each_select {f : D → β} (hS : S ⟨β, fun _ => [], fun d => .ok ([], f d)⟩) :
    Call.Each S B (select f : Call D W K E β) :=
  Call.each_statement hS fun d e h => by cases h

theorem Call.each_evaluate {r : Except E α} (h : ∀ e, r = .error e → B e) :
    Call.Each S B (evaluate r : Call D W K E α) := by
  cases r with
  | ok a => trivial
  | error e => exact h e rfl

theorem Call.Each.onlyIf {c : Prop} [Decidable c] {p : Call D W K E Unit} (hp : c → p.Each S B) :
    Call.Each S B (Concurrency.onlyIf c p) := by
  unfold Concurrency.onlyIf
  split
  · rename_i hc
    exact hp hc
  · exact Call.each_pure _

/-- A call that keeps to what it writes does so with each statement. -/
theorem Call.Within.each {P : W → Prop} {p : Call D W K E α} (hp : p.Within P B) :
    p.Each (fun o => ∀ d, ∀ w ∈ o.writes d, P w) B := by
  have key : ∀ q : Prog (Stmt D W K E) Stmt.Res (Except E α), q.Within P B →
      q.Each (fun o => ∀ d, ∀ w ∈ o.writes d, P w) B := by
    intro q
    induction q with
    | ret r => exact fun hq => hq
    | op o k ih => exact fun hq => ⟨fun d => (hq d).1, fun d => ih _ (hq d).2⟩
  exact key _ hp

theorem Call.Each.and {S' : Stmt D W K E → Prop} {B' : E → Prop} {p : Call D W K E α}
    (hp : p.Each S B) (hp' : p.Each S' B') : p.Each (fun o => S o ∧ S' o) B := by
  have key : ∀ q : Prog (Stmt D W K E) Stmt.Res (Except E α), q.Each S B → q.Each S' B' →
      q.Each (fun o => S o ∧ S' o) B := by
    intro q
    induction q with
    | ret r => exact fun hq _ => hq
    | op o k ih => exact fun hq hq' => ⟨⟨hq.1, hq'.1⟩, fun d => ih _ (hq.2 d) (hq'.2 d)⟩
  exact key _ hp hp'

/-- **Calls that do not matter.**  An assertion that the others cannot falsify, nor
the statements of the call, and that implies `N` before each of them. -/
theorem Call.along_of_each {A : Assertion D W K} {p : Call D W K E α} (hp : p.Each S R.Allowed)
    (hstable : Stable R A)
    (hstep : ∀ {o own held d}, S o → A own held d → N o own held d ∧
      A (own ++ o.writes (view apply d own)) (held ++ o.locks (view apply d own)) d)
    {own : List W} {held : List K} {d : D} (h : A own held d) :
    Call.Along apply R N p (fun _ => A) own held d := by
  have key : ∀ q : Prog (Stmt D W K E) Stmt.Res (Except E α), q.Each S R.Allowed →
      ∀ {own held d}, A own held d → Prog.Along apply R N q (Outcome R fun _ => A) own held d := by
    intro q
    induction q with
    | ret r =>
      intro hq own held d hA
      cases r with
      | ok a => exact hA
      | error e => exact hq
    | op o k ih =>
      intro hq own held d hA d' hrely hinv
      obtain ⟨hN, hnext⟩ := hstep hq.1 (hstable hA hrely hinv)
      exact ⟨hN, ih _ (hq.2 _) hnext⟩
  exact key _ hp h

end Rule

/-! ## What a call writes while something holds -/

section WithinIf

variable {D W K E α β : Type} {V : D → Prop} {P : W → Prop}

/-- As long as all it reads satisfies `V`, every row the program writes satisfies
`P` and what it returns satisfies `Q`. -/
def Prog.WithinIf (V : D → Prop) (P : W → Prop) :
    Prog (Stmt D W K E) Stmt.Res α → (α → Prop) → Prop
  | .ret a, Q => Q a
  | .op o k, Q => ∀ d, V d → (∀ w ∈ o.writes d, P w) ∧ (k (o.answer d)).WithinIf V P Q

/-- The same for a call, whose errors do not matter. -/
def Call.WithinIf (V : D → Prop) (P : W → Prop) (p : Call D W K E α) (Q : α → Prop) : Prop :=
  Prog.WithinIf V P (ExceptT.run p) fun r => ∀ a, r = .ok a → Q a

theorem Call.withinIf_pure {a : α} {Q : α → Prop} (h : Q a) :
    Call.WithinIf V P (pure a : Call D W K E α) Q := by
  intro a' ha'
  cases ha'
  exact h

theorem Call.withinIf_throw {e : E} {Q : α → Prop} :
    Call.WithinIf V P (throw e : Call D W K E α) Q := by
  intro a ha
  cases ha

theorem Call.withinIf_evaluate {r : Except E α} {Q : α → Prop} (h : ∀ a, r = .ok a → Q a) :
    Call.WithinIf V P (evaluate r : Call D W K E α) Q := h

theorem Call.withinIf_onlyIf {c : Prop} [Decidable c] {p : Call D W K E Unit} {Q : Unit → Prop}
    (hp : c → p.WithinIf V P Q) (hskip : ¬ c → Q ()) :
    Call.WithinIf V P (onlyIf c p) Q := by
  unfold onlyIf
  split
  · rename_i hc
    exact hp hc
  · rename_i hc
    exact Call.withinIf_pure (hskip hc)

theorem Call.withinIf_statement {locks : D → List K} {exec : D → Except E (List W × β)}
    {Q : β → Prop} (h : ∀ d, V d → ∀ ws b, exec d = .ok (ws, b) → (∀ w ∈ ws, P w) ∧ Q b) :
    Call.WithinIf V P (statement locks exec) Q := by
  intro d hV
  simp only [Stmt.writes, Stmt.answer]
  cases hx : exec d with
  | error e => exact ⟨fun _ hw => absurd hw List.not_mem_nil, fun b hb => by cases hb⟩
  | ok r =>
    obtain ⟨hw, hQ⟩ := h d hV r.1 r.2 hx
    refine ⟨hw, fun b hb => ?_⟩
    cases hb
    exact hQ

theorem Call.withinIf_select {f : D → β} {Q : β → Prop} (h : ∀ d, V d → Q (f d)) :
    Call.WithinIf V P (select f : Call D W K E β) Q := by
  refine Call.withinIf_statement fun d hV ws b hexec => ?_
  cases hexec
  exact ⟨(fun _ hw => nomatch hw), h d hV⟩

theorem Call.WithinIf.bind {p : Call D W K E α} {f : α → Call D W K E β} {Q : β → Prop}
    (h : p.WithinIf V P fun a => Call.WithinIf V P (f a) Q) :
    Call.WithinIf V P (p >>= f) Q := by
  have key : ∀ q : Prog (Stmt D W K E) Stmt.Res (Except E α),
      q.WithinIf V P (fun r => ∀ a, r = .ok a → Call.WithinIf V P (f a) Q) →
      (q.bind (ExceptT.bindCont f)).WithinIf V P fun r => ∀ b, r = .ok b → Q b := by
    intro q
    induction q with
    | ret r =>
      intro hr
      cases r with
      | ok a => exact hr a rfl
      | error e => exact fun b hb => nomatch hb
    | op o k ih => exact fun hq d hV => ⟨(hq d hV).1, ih _ (hq d hV).2⟩
  exact key _ h

theorem Call.WithinIf.mono {p : Call D W K E α} {Q Q' : α → Prop} (h : p.WithinIf V P Q)
    (hQ : ∀ a, Q a → Q' a) : p.WithinIf V P Q' := by
  have key : ∀ q : Prog (Stmt D W K E) Stmt.Res (Except E α),
      q.WithinIf V P (fun r => ∀ a, r = .ok a → Q a) →
      q.WithinIf V P fun r => ∀ a, r = .ok a → Q' a := by
    intro q
    induction q with
    | ret r => exact fun hr a ha => hQ a (hr a ha)
    | op o k ih => exact fun hq d hV => ⟨(hq d hV).1, ih _ (hq d hV).2⟩
  exact key _ h

/-- What a call returns may be forgotten. -/
theorem Call.WithinIf.forget {p : Call D W K E α} {Q : α → Prop} (h : p.WithinIf V P Q) :
    Prog.WithinIf V P (ExceptT.run p) fun _ => True := by
  have key : ∀ {q : Prog (Stmt D W K E) Stmt.Res (Except E α)} {Q : Except E α → Prop},
      q.WithinIf V P Q → q.WithinIf V P fun _ => True := by
    intro q Q
    induction q with
    | ret r => exact fun _ => trivial
    | op o k ih => exact fun hq d hV => ⟨(hq d hV).1, ih _ (hq d hV).2⟩
  exact key h

/-- A call that keeps to `P` whatever it reads. -/
theorem Call.Within.withinIf {B : E → Prop} {p : Call D W K E α} (h : p.Within P B) :
    p.WithinIf V P fun _ => True := by
  have key : ∀ q : Prog (Stmt D W K E) Stmt.Res (Except E α), q.Within P B →
      q.WithinIf V P fun r => ∀ a, r = .ok a → True := by
    intro q
    induction q with
    | ret r => exact fun _ _ _ => trivial
    | op o k ih => exact fun hq d _ => ⟨(hq d).1, ih _ (hq d).2⟩
  exact key _ h

end WithinIf

/-! ## Along an interleaving -/

section Soundness

variable {ι D W K E α : Type} [DecidableEq ι] {apply : D → W → D} {R : Discipline D K E}
  {N : Stmt D W K E → Assertion D W K} {Q : α → Assertion D W K}

/-- A call that is still running goes on along `N` to `Q`. -/
def CallState.Along (apply : D → W → D) (R : Discipline D K E)
    (N : Stmt D W K E → Assertion D W K) (Q : α → Assertion D W K) (c : CallState D W K E α)
    (d : D) : Prop :=
  ∀ own held code, c = .running own held code →
    Prog.Along apply R N code (Outcome R Q) own held d

/-- **One step**, of the call itself or of another one. -/
theorem Coherent.along {σ σ' : State ι D W K E α} {i j : ι} (h : Coherent apply R σ)
    (hQ : ∀ a, Stable R (Q a)) (hi : (σ.calls i).Along apply R N Q σ.committed)
    (hs : Step apply σ j σ') : (σ'.calls i).Along apply R N Q σ'.committed := by
  intro own held code hrun
  by_cases hij : i = j
  · subst hij
    cases hs with
    | @exec own₀ held₀ o k hi₀ hfree =>
      rw [State.set_calls_self] at hrun
      cases hrun
      exact (hi own₀ held₀ _ hi₀ σ.committed (R.refl _ _) h.inv).2
    | @commit own₀ held₀ a hi₀ =>
      have hset := State.set_calls_self σ i (.committed a)
      exact nomatch hset.symm.trans hrun
    | abort hi₀ =>
      rw [State.set_calls_self] at hrun
      cases hrun
    | cancel hi₀ =>
      rw [State.set_calls_self] at hrun
      cases hrun
  · cases hs with
    | @commit own₀ held₀ a hj =>
      have hrun' : σ.calls i = .running own held code :=
        (State.set_calls_of_ne σ _ hij).symm.trans hrun
      have hcommit : Committable apply R own₀ held₀ σ.committed := h.code j own₀ held₀ _ hj
      obtain ⟨hinv, hothers⟩ := hcommit σ.committed (R.refl _ _) h.inv
      refine Prog.stable_along ?_ (hi own held code hrun') (hothers held ?_) hinv
      · intro r
        cases r with
        | ok a => exact hQ a
        | error e => exact fun h _ _ => h
      · intro l hl hl'
        exact h.locks i j hij l (by rw [hrun']; exact hl') (by rw [hj]; exact hl)
    | exec hj hfree =>
      rw [State.set_calls_of_ne σ _ hij] at hrun
      exact hi own held code hrun
    | abort hj =>
      rw [State.set_calls_of_ne σ _ hij] at hrun
      exact hi own held code hrun
    | cancel hj =>
      rw [State.set_calls_of_ne σ _ hij] at hrun
      exact hi own held code hrun

/-- **Along every interleaving** of calls that keep to the discipline, a call is
where its assertion says. -/
theorem Discipline.along {p : ι → Call D W K E α} {d : D} (hinv : R.Inv d)
    (hsafe : ∀ i, Call.Safe apply R (p i) d) (hQ : ∀ a, Stable R (Q a)) {i : ι}
    (hi : Call.Along apply R N (p i) Q [] [] d) {σ : State ι D W K E α}
    (h : Relational.Reach (Step apply) Relational.Always (State.initial d p) σ) :
    (σ.calls i).Along apply R N Q σ.committed := by
  have hboth : Coherent apply R σ ∧ (σ.calls i).Along apply R N Q σ.committed := by
    have hstart : (CallState.start (p i)).Along apply R N Q d := by
      intro own held code hrun
      cases hrun
      exact hi
    induction h with
    | start => exact ⟨Discipline.sound hinv hsafe .start, hstart⟩
    | next _ _ hs ih => exact ⟨ih.1.step hs, ih.1.along hQ ih.2 hs⟩
  exact hboth.2

end Soundness

end Concurrency
