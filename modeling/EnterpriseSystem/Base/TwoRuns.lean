import EnterpriseSystem.Base.ReadCommitted

/-!
# Two runs of a call

Whether a call depends on a part of the database is a question about two runs:
on two states that differ in that part only, does it end in the same way?  What
a run comes to is its outcome, the answer and the rows it has written, or its
error.  Two runs are compared statement by statement, by a relation between what
they have written so far.

* `outcome` — what a call comes to on committed rows that stay as they are;
  `execute_eq_outcome` says that these rows with what it has written are the
  database after it.
* `Call.Related` — two calls either both go through, with answers and writes in a
  relation, or both raise the same error.  `Call.related_bind` and its companions
  are its rules.
-/

namespace Concurrency

section

variable {D W K E α β : Type} (apply : D → W → D)

/-- A statement of a call that has written `own`, on the committed rows `d`. -/
def recording (d : D) (o : Stmt D W K E) (own : List W) : o.Res × List W :=
  (o.answer (view apply d own), own ++ o.writes (view apply d own))

/-- What the rest of a call comes to that has written `own`. -/
def outcomeFrom (d : D) (p : Call D W K E α) (own : List W) : Except E (α × List W) :=
  transact (recording apply d) p own

/-- What a call comes to. -/
def outcome (d : D) (p : Call D W K E α) : Except E (α × List W) := outcomeFrom apply d p []

@[simp] theorem outcomeFrom_pure (d : D) (a : α) (own : List W) :
    outcomeFrom apply d (pure a : Call D W K E α) own = .ok (a, own) := rfl

@[simp] theorem outcomeFrom_throw (d : D) (e : E) (own : List W) :
    outcomeFrom apply d (throw e : Call D W K E α) own = .error e := rfl

theorem outcomeFrom_bind (d : D) (p : Call D W K E α) (f : α → Call D W K E β) (own : List W) :
    outcomeFrom apply d (p >>= f) own =
      match outcomeFrom apply d p own with
      | .ok (a, own') => outcomeFrom apply d (f a) own'
      | .error e => .error e := by
  unfold outcomeFrom
  rw [transact_bind]
  rcases transact (recording apply d) p own with e | ⟨a, own'⟩ <;> rfl

theorem outcomeFrom_statement (d : D) (locks : D → List K) (exec : D → Except E (List W × β))
    (own : List W) : outcomeFrom apply d (statement locks exec) own =
      match exec (view apply d own) with
      | .ok (ws, b) => .ok (b, own ++ ws)
      | .error e => .error e := by
  simp only [outcomeFrom, transact, statement, Prog.perform, ExceptT.run, ExceptT.mk, Prog.run,
    recording, Stmt.answer, Stmt.writes]
  cases exec (view apply d own) <;> rfl

@[simp] theorem outcomeFrom_select (d : D) (f : D → β) (own : List W) :
    outcomeFrom apply d (select f : Call D W K E β) own = .ok (f (view apply d own), own) := by
  rw [select, outcomeFrom_statement]
  simp

@[simp] theorem outcomeFrom_evaluate (d : D) (r : Except E α) (own : List W) :
    outcomeFrom apply d (evaluate r : Call D W K E α) own = r.map (·, own) := by
  cases r <;> rfl

/-- **What a call comes to and the database after it**: the rows the call has
found, and what it has written. -/
theorem execute_eq_outcomeFrom (d : D) (p : Call D W K E α) (own : List W) :
    execute apply p (view apply d own) =
      (outcomeFrom apply d p own).map fun r => (r.1, view apply d r.2) := by
  have key : ∀ (q : Prog (Stmt D W K E) Stmt.Res (Except E α)) (own : List W),
      q.run (sequential apply) (view apply d own) =
        ((q.run (recording apply d) own).1, view apply d (q.run (recording apply d) own).2) := by
    intro q
    induction q with
    | ret r => exact fun _ => rfl
    | op o k ih =>
      intro own
      simp only [Prog.run, sequential, ← view_append]
      exact ih _ _
  simp only [execute, outcomeFrom, transact, key]
  rcases (ExceptT.run p).run (recording apply d) own with ⟨r, own'⟩
  cases r <;> rfl

theorem execute_eq_outcome (d : D) (p : Call D W K E α) :
    execute apply p d = (outcome apply d p).map fun r => (r.1, view apply d r.2) :=
  execute_eq_outcomeFrom apply d p []

theorem execute_of_outcomeFrom {d : D} {p : Call D W K E α} {own ws : List W} {a : α}
    (h : outcomeFrom apply d p own = .ok (a, ws)) :
    execute apply p (view apply d own) = .ok (a, view apply d ws) := by
  rw [execute_eq_outcomeFrom, h]
  rfl

/-- An error is left as it is. -/
theorem map_eq_error {γ : Type} {r : Except E α} {g : α → γ} {e : E} :
    r.map g = .error e ↔ r = .error e := by
  cases r <;> simp [Except.map]

/-- A call raises an error when it comes to that. -/
theorem execute_eq_error {d : D} {p : Call D W K E α} {e : E} :
    execute apply p d = .error e ↔ outcome apply d p = .error e := by
  rw [execute_eq_outcome, map_eq_error]

/-! ## Relating two runs -/

/-- Both go through, in relation, or both raise the same error. -/
def Coincide (Q : α → α → List W → List W → Prop) (r r' : Except E (α × List W)) : Prop :=
  match r, r' with
  | .ok (a, own), .ok (a', own') => Q a a' own own'
  | .error e, .error e' => e = e'
  | _, _ => False

/-- Calls that have written `own` and `own'`, on the committed rows `d` and `d'`,
come to the same up to `Q`. -/
def Call.Related (d d' : D) (p p' : Call D W K E α) (Q : α → α → List W → List W → Prop)
    (own own' : List W) : Prop :=
  Coincide Q (outcomeFrom apply d p own) (outcomeFrom apply d' p' own')

variable {apply} {d d' : D} {own own' : List W}

theorem Call.related_pure {Q : α → α → List W → List W → Prop} {a a' : α} (h : Q a a' own own') :
    Call.Related apply d d' (pure a : Call D W K E α) (pure a') Q own own' := h

theorem Call.related_throw (Q : α → α → List W → List W → Prop) (e : E) :
    Call.Related apply d d' (throw e : Call D W K E α) (throw e) Q own own' := rfl

/-- Two runs that both go through. -/
theorem Call.related_of_ok {p p' : Call D W K E α} {Q : α → α → List W → List W → Prop}
    {a a' : α} {ws ws' : List W} (h : outcomeFrom apply d p own = .ok (a, ws))
    (h' : outcomeFrom apply d' p' own' = .ok (a', ws')) (hQ : Q a a' ws ws') :
    Call.Related apply d d' p p' Q own own' := by
  rw [Call.Related, h, h']
  exact hQ

/-- **Sequencing**: the second halves are related wherever the first ones go
through in relation. -/
theorem Call.related_bind {p p' : Call D W K E α} {f f' : α → Call D W K E β}
    {R : α → α → List W → List W → Prop} {Q : β → β → List W → List W → Prop}
    (hp : Call.Related apply d d' p p' R own own')
    (hf : ∀ a a' ws ws', outcomeFrom apply d p own = .ok (a, ws) →
      outcomeFrom apply d' p' own' = .ok (a', ws') → R a a' ws ws' →
      Call.Related apply d d' (f a) (f' a') Q ws ws') :
    Call.Related apply d d' (p >>= f) (p' >>= f') Q own own' := by
  unfold Call.Related at hp
  rw [Call.Related, outcomeFrom_bind, outcomeFrom_bind]
  rcases hr : outcomeFrom apply d p own with e | ⟨a, ws⟩ <;>
    rcases hr' : outcomeFrom apply d' p' own' with e' | ⟨a', ws'⟩ <;> rw [hr, hr'] at hp
  · exact hp
  · exact hp.elim
  · exact hp.elim
  · exact hf a a' ws ws' hr hr' hp

/-- **A statement** that does the same in both views. -/
theorem Call.related_statement {locks : D → List K} {exec : D → Except E (List W × β)}
    {Q : β → β → List W → List W → Prop}
    (hexec : exec (view apply d own) = exec (view apply d' own'))
    (hQ : ∀ ws b, exec (view apply d own) = .ok (ws, b) → Q b b (own ++ ws) (own' ++ ws)) :
    Call.Related apply d d' (statement locks exec) (statement locks exec) Q own own' := by
  rw [Call.Related, outcomeFrom_statement, outcomeFrom_statement, ← hexec]
  cases hr : exec (view apply d own) with
  | error e => exact rfl
  | ok r => exact hQ r.1 r.2 hr

theorem Call.related_select_bind {f : D → α} {g g' : α → Call D W K E β}
    {Q : β → β → List W → List W → Prop} (h : Call.Related apply d d' (g (f (view apply d own)))
      (g' (f (view apply d' own'))) Q own own') :
    Call.Related apply d d' (select f >>= g) (select f >>= g') Q own own' := by
  rw [Call.Related, outcomeFrom_bind, outcomeFrom_bind, outcomeFrom_select, outcomeFrom_select]
  exact h

theorem Call.related_evaluate_bind {r : Except E α} {f f' : α → Call D W K E β}
    {Q : β → β → List W → List W → Prop}
    (h : ∀ a, r = .ok a → Call.Related apply d d' (f a) (f' a) Q own own') :
    Call.Related apply d d' (evaluate r >>= f) (evaluate r >>= f') Q own own' := by
  rw [Call.Related, outcomeFrom_bind, outcomeFrom_bind, outcomeFrom_evaluate, outcomeFrom_evaluate]
  cases r with
  | error e => exact rfl
  | ok a => exact h a rfl

theorem Call.related_onlyIf {c : Prop} [Decidable c] {p p' : Call D W K E Unit}
    {Q : Unit → Unit → List W → List W → Prop}
    (hp : c → Call.Related apply d d' p p' Q own own') (hnot : ¬ c → Q () () own own') :
    Call.Related apply d d' (onlyIf c p) (onlyIf c p') Q own own' := by
  unfold onlyIf
  split
  · rename_i hc
    exact hp hc
  · rename_i hc
    exact Call.related_pure (hnot hc)

theorem Call.related_mono {p p' : Call D W K E α} {Q Q' : α → α → List W → List W → Prop}
    (h : Call.Related apply d d' p p' Q own own')
    (hQ : ∀ a a' ws ws', Q a a' ws ws' → Q' a a' ws ws') :
    Call.Related apply d d' p p' Q' own own' := by
  unfold Call.Related at *
  rcases hr : outcomeFrom apply d p own with e | ⟨a, ws⟩ <;>
    rcases hr' : outcomeFrom apply d' p' own' with e' | ⟨a', ws'⟩ <;> rw [hr, hr'] at h
  · exact h
  · exact h
  · exact h
  · exact hQ a a' ws ws' h

/-- **Related runs look the same** to whoever does not see more than `g`. -/
theorem Call.Related.map_eq {γ : Type} {p p' : Call D W K E α}
    {Q : α → α → List W → List W → Prop} (h : Call.Related apply d d' p p' Q own own')
    {g : α × List W → γ} (hg : ∀ a a' ws ws', Q a a' ws ws' → g (a, ws) = g (a', ws')) :
    (outcomeFrom apply d p own).map g = (outcomeFrom apply d' p' own').map g := by
  unfold Call.Related at h
  rcases hr : outcomeFrom apply d p own with e | ⟨a, ws⟩ <;>
    rcases hr' : outcomeFrom apply d' p' own' with e' | ⟨a', ws'⟩ <;> rw [hr, hr'] at h
  · exact congrArg Except.error h
  · exact h.elim
  · exact h.elim
  · exact congrArg Except.ok (hg a a' ws ws' h)

end

end Concurrency
