import EnterpriseSystem.Base.Program
import EnterpriseSystem.Base.Run

/-!
# Transactions under READ COMMITTED

A database call is a program of statements.  Each statement sees the rows
committed before it together with what its own call has written, takes locks
that are kept until the call ends, and writes rows that nobody else sees until
the call commits.  An error undoes the whole call.

* `Stmt` — a statement: the locks it needs in a given view of the database,
  and what it writes and answers there.
* `sequential` — the handler that runs a call with nobody else around;
  `execute` is a whole call run that way.
* `Step` — one step of any number of calls: a statement whose locks nobody else
  holds, a commit, an abort, or a cancellation.
* `Call.Within` — what a call can write and which errors it can raise, whatever
  it reads.
-/

namespace Concurrency

/-- A statement over databases `D`: the locks of type `K` it takes in the view
it runs in, and the writes of type `W` and the answer it gives there. -/
structure Stmt (D W K E : Type) where
  β : Type
  locks : D → List K
  exec : D → Except E (List W × β)

namespace Stmt

variable {D W K E : Type}

/-- A statement answers, or it raises an error. -/
def Res (o : Stmt D W K E) : Type := Except E o.β

/-- What a statement writes in a view: nothing when it raises an error. -/
def writes (o : Stmt D W K E) (v : D) : List W :=
  match o.exec v with
  | .ok (ws, _) => ws
  | .error _ => []

/-- What a statement answers in a view. -/
def answer (o : Stmt D W K E) (v : D) : o.Res :=
  match o.exec v with
  | .ok (_, b) => .ok b
  | .error e => .error e

end Stmt

/-- A database call: a program of statements that may end with an error. -/
abbrev Call (D W K E : Type) (α : Type) : Type 1 :=
  ExceptT E (Prog (Stmt D W K E) Stmt.Res) α

section Calls

variable {D W K E α β : Type}

/-- A call of one statement. -/
def statement (locks : D → List K) (exec : D → Except E (List W × β)) : Call D W K E β :=
  ExceptT.mk (Prog.perform (⟨β, locks, exec⟩ : Stmt D W K E))

/-- A statement that reads and takes no lock. -/
def select (f : D → β) : Call D W K E β := statement (fun _ => []) fun d => .ok ([], f d)

/-- A computation that reads no table. -/
def evaluate (r : Except E α) : Call D W K E α := ExceptT.mk (pure r)

/-- `IF c THEN p; END IF`. -/
def onlyIf (c : Prop) [Decidable c] (p : Call D W K E Unit) : Call D W K E Unit :=
  if c then p else pure ()

/-! ## Running a call alone -/

/-- The database after some writes, the view a call has of it. -/
def view (apply : D → W → D) (d : D) (own : List W) : D := own.foldl apply d

@[simp] theorem view_nil (apply : D → W → D) (d : D) : view apply d [] = d := rfl

@[simp] theorem view_cons (apply : D → W → D) (d : D) (w : W) (ws : List W) :
    view apply d (w :: ws) = view apply (apply d w) ws := rfl

theorem view_append (apply : D → W → D) (d : D) (ws ws' : List W) :
    view apply d (ws ++ ws') = view apply (view apply d ws) ws' := List.foldl_append

/-- A statement executed with nobody else around. -/
def sequential (apply : D → W → D) (o : Stmt D W K E) (d : D) : o.Res × D :=
  (o.answer d, view apply d (o.writes d))

/-- A whole call executed with nobody else around. -/
def execute (apply : D → W → D) (p : Call D W K E α) (d : D) : Except E (α × D) :=
  transact (sequential apply) p d

variable (apply : D → W → D)

@[simp] theorem execute_pure (a : α) (d : D) :
    execute apply (pure a : Call D W K E α) d = .ok (a, d) := rfl

@[simp] theorem execute_throw (e : E) (d : D) :
    execute apply (throw e : Call D W K E α) d = .error e := rfl

theorem execute_bind (p : Call D W K E α) (f : α → Call D W K E β) (d : D) :
    execute apply (p >>= f) d =
      match execute apply p d with
      | .ok (a, d') => execute apply (f a) d'
      | .error e => .error e :=
  transact_bind _ _ _ _

theorem execute_bind_eq_ok {p : Call D W K E α} {f : α → Call D W K E β} {d d'' : D} {b : β} :
    execute apply (p >>= f) d = .ok (b, d'') ↔
      ∃ a d', execute apply p d = .ok (a, d') ∧ execute apply (f a) d' = .ok (b, d'') :=
  transact_bind_eq_ok _

/-- A call that goes on after its first half. -/
theorem execute_bind_of_ok {p : Call D W K E α} {f : α → Call D W K E β} {d d' : D} {a : α}
    (h : execute apply p d = .ok (a, d')) :
    execute apply (p >>= f) d = execute apply (f a) d' := by
  rw [execute_bind, h]

/-- A call that ends with its first half. -/
theorem execute_bind_of_error {p : Call D W K E α} {f : α → Call D W K E β} {d : D} {e : E}
    (h : execute apply p d = .error e) : execute apply (p >>= f) d = .error e := by
  rw [execute_bind, h]

theorem execute_statement (locks : D → List K) (exec : D → Except E (List W × β)) (d : D) :
    execute apply (statement locks exec) d =
      match exec d with
      | .ok (ws, b) => .ok (b, view apply d ws)
      | .error e => .error e := by
  simp only [execute, transact, statement, Prog.perform, ExceptT.run, ExceptT.mk, Prog.run,
    sequential, Stmt.answer, Stmt.writes]
  cases exec d <;> rfl

@[simp] theorem execute_select (f : D → β) (d : D) :
    execute apply (select f : Call D W K E β) d = .ok (f d, d) := rfl

@[simp] theorem execute_evaluate (r : Except E α) (d : D) :
    execute apply (evaluate r : Call D W K E α) d = r.map (·, d) := by
  cases r <;> rfl

@[simp] theorem execute_select_bind (f : D → α) (g : α → Call D W K E β) (d : D) :
    execute apply (select f >>= g) d = execute apply (g (f d)) d := by
  rw [execute_bind, execute_select]

@[simp] theorem execute_evaluate_ok_bind (a : α) (f : α → Call D W K E β) (d : D) :
    execute apply (evaluate (.ok a) >>= f) d = execute apply (f a) d := by
  rw [execute_bind, execute_evaluate]
  rfl

theorem execute_onlyIf (c : Prop) [Decidable c] (p : Call D W K E Unit) (d : D) :
    execute apply (onlyIf c p) d = if c then execute apply p d else .ok ((), d) := by
  unfold onlyIf
  split <;> rfl

theorem execute_onlyIf_of_true {c : Prop} [Decidable c] (hc : c) (p : Call D W K E Unit) (d : D) :
    execute apply (onlyIf c p) d = execute apply p d := by
  rw [execute_onlyIf, if_pos hc]

theorem execute_onlyIf_of_false {c : Prop} [Decidable c] (hc : ¬ c) (p : Call D W K E Unit)
    (d : D) : execute apply (onlyIf c p) d = .ok ((), d) := by
  rw [execute_onlyIf, if_neg hc]

/-! What it means for each of them to go through. -/

theorem execute_statement_eq_ok {locks : D → List K} {exec : D → Except E (List W × β)}
    {d d' : D} {b : β} :
    execute apply (statement locks exec) d = .ok (b, d') ↔
      ∃ ws, exec d = .ok (ws, b) ∧ d' = view apply d ws := by
  rw [execute_statement]
  cases exec d with
  | error e => simp
  | ok r =>
    obtain ⟨ws, b'⟩ := r
    constructor
    · intro h
      cases h
      exact ⟨ws, rfl, rfl⟩
    · rintro ⟨_, h, rfl⟩
      cases h
      rfl

theorem execute_evaluate_eq_ok {r : Except E α} {d d' : D} {a : α} :
    execute apply (evaluate r : Call D W K E α) d = .ok (a, d') ↔ r = .ok a ∧ d' = d := by
  rw [execute_evaluate]
  cases r with
  | error e => simp [Except.map]
  | ok a' => simp [Except.map, eq_comm]

theorem execute_select_eq_ok {f : D → β} {d d' : D} {b : β} :
    execute apply (select f : Call D W K E β) d = .ok (b, d') ↔ b = f d ∧ d' = d := by
  simp [eq_comm]

theorem execute_pure_eq_ok {a b : α} {d d' : D} :
    execute apply (pure a : Call D W K E α) d = .ok (b, d') ↔ b = a ∧ d' = d := by
  simp [eq_comm]

theorem execute_throw_ne_ok {e : E} {d : D} {r : α × D} :
    execute apply (throw e : Call D W K E α) d ≠ .ok r := by
  simp

theorem execute_onlyIf_eq_ok {c : Prop} [Decidable c] {p : Call D W K E Unit} {d d' : D}
    {u : Unit} : execute apply (onlyIf c p) d = .ok (u, d') ↔
      (c ∧ execute apply p d = .ok (u, d')) ∨ (¬ c ∧ d' = d) := by
  rw [execute_onlyIf]
  split
  · rename_i hc
    simp [hc]
  · rename_i hc
    simp [hc, eq_comm]

/-- A call whose answer is dropped. -/
theorem execute_bind_unit_eq_ok {p : Call D W K E α} {d d' : D} {u : Unit} :
    execute apply (p >>= fun _ => (pure () : Call D W K E Unit)) d = .ok (u, d') ↔
      ∃ a, execute apply p d = .ok (a, d') := by
  rw [execute_bind_eq_ok]
  constructor
  · rintro ⟨a, d₁, h, h'⟩
    cases h'
    exact ⟨a, h⟩
  · rintro ⟨a, h⟩
    exact ⟨a, d', h, rfl⟩

/-- What raises an error in the end does not go through. -/
theorem execute_bind_throw_ne_ok {p : Call D W K E α} {e : E} {d : D} {r : β × D} :
    execute apply (p >>= fun _ => (throw e : Call D W K E β)) d ≠ .ok r := by
  intro h
  obtain ⟨_, _, _, hthrow⟩ := (execute_bind_eq_ok apply).1 h
  cases hthrow

/-- A branch that always raises an error is passed exactly when its condition is
false. -/
theorem execute_onlyIf_eq_ok_of_raises {c : Prop} [Decidable c] {p : Call D W K E Unit}
    (hp : ∀ d r, execute apply p d ≠ .ok r) {d d' : D} {u : Unit} :
    execute apply (onlyIf c p) d = .ok (u, d') ↔ ¬ c ∧ d' = d := by
  simp [execute_onlyIf_eq_ok, hp]

/-- A check that raises an error goes through exactly when it does not apply. -/
theorem execute_onlyIf_throw_eq_ok {c : Prop} [Decidable c] {e : E} {d d' : D} {u : Unit} :
    execute apply (onlyIf c (throw e) : Call D W K E Unit) d = .ok (u, d') ↔ ¬ c ∧ d' = d :=
  execute_onlyIf_eq_ok_of_raises apply fun _ _ h => by cases h

/-! ## What a call can write and raise -/

/-- A result that is not an error outside `B`. -/
def Ends (B : E → Prop) : Except E α → Prop
  | .ok _ => True
  | .error e => B e

/-- Every row the program writes satisfies `P` and every error it ends with
satisfies `B`, whatever it reads. -/
def Prog.Within (P : W → Prop) (B : E → Prop) :
    Prog (Stmt D W K E) Stmt.Res (Except E α) → Prop
  | .ret r => Ends B r
  | .op o k => ∀ d, (∀ w ∈ o.writes d, P w) ∧ (k (o.answer d)).Within P B

/-- Every row a call writes satisfies `P` and every error it raises satisfies
`B`, whatever it reads. -/
def Call.Within (P : W → Prop) (B : E → Prop) (p : Call D W K E α) : Prop :=
  Prog.Within P B (ExceptT.run p)

variable {P : W → Prop} {B : E → Prop}

/-- A call that keeps to less keeps to more. -/
theorem Call.Within.mono {p : Call D W K E α} (hp : p.Within P B) {P' : W → Prop} {B' : E → Prop}
    (hP : ∀ w, P w → P' w) (hB : ∀ e, B e → B' e) : p.Within P' B' := by
  have key : ∀ q : Prog (Stmt D W K E) Stmt.Res (Except E α), q.Within P B → q.Within P' B' := by
    intro q
    induction q with
    | ret r =>
      intro hr
      cases r with
      | ok a => trivial
      | error e => exact hB e hr
    | op o k ih => exact fun hq d => ⟨fun w hw => hP w ((hq d).1 w hw), ih _ (hq d).2⟩
  exact key _ hp

theorem Call.within_pure (a : α) : Call.Within P B (pure a : Call D W K E α) := trivial

theorem Call.within_throw {e : E} (h : B e) : Call.Within P B (throw e : Call D W K E α) := h

theorem Call.Within.bind {p : Call D W K E α} {f : α → Call D W K E β} (hp : p.Within P B)
    (hf : ∀ a, Call.Within P B (f a)) : Call.Within P B (p >>= f) := by
  have key : ∀ q : Prog (Stmt D W K E) Stmt.Res (Except E α), q.Within P B →
      (q.bind (ExceptT.bindCont f)).Within P B := by
    intro q
    induction q with
    | ret r =>
      intro hr
      cases r with
      | ok a => exact hf a
      | error e => exact hr
    | op o k ih => exact fun hq d => ⟨(hq d).1, ih _ (hq d).2⟩
  exact key _ hp

theorem Call.within_statement {locks : D → List K} {exec : D → Except E (List W × β)}
    (hok : ∀ d ws b, exec d = .ok (ws, b) → ∀ w ∈ ws, P w) (herr : ∀ d e, exec d = .error e → B e) :
    Call.Within P B (statement locks exec) := by
  intro d
  simp only [Stmt.writes, Stmt.answer]
  cases hx : exec d with
  | error e => exact ⟨by simp, herr d e hx⟩
  | ok r => exact ⟨hok d r.1 r.2 hx, trivial⟩

theorem Call.within_select (f : D → β) : Call.Within P B (select f : Call D W K E β) :=
  Call.within_statement (fun d ws b h => by cases h; simp) (fun d e h => by cases h)

theorem Call.within_evaluate {r : Except E α} (h : ∀ e, r = .error e → B e) :
    Call.Within P B (evaluate r : Call D W K E α) := by
  cases r with
  | ok a => trivial
  | error e => exact h e rfl

theorem Call.Within.onlyIf {c : Prop} [Decidable c] {p : Call D W K E Unit}
    (hp : c → p.Within P B) : Call.Within P B (Concurrency.onlyIf c p) := by
  unfold Concurrency.onlyIf
  split
  · rename_i hc
    exact hp hc
  · exact Call.within_pure _

/-- A call that goes through alone has made a list of writes, each of which it
can make. -/
theorem Call.Within.execute {p : Call D W K E α} (hp : p.Within P B) {d d' : D} {a : α}
    (h : Concurrency.execute apply p d = .ok (a, d')) :
    ∃ ws : List W, (∀ w ∈ ws, P w) ∧ d' = view apply d ws := by
  have key : ∀ (q : Prog (Stmt D W K E) Stmt.Res (Except E α)) (d : D), q.Within P B →
      ∃ ws : List W, (∀ w ∈ ws, P w) ∧ (q.run (sequential apply) d).2 = view apply d ws := by
    intro q
    induction q with
    | ret a => exact fun d _ => ⟨[], by simp, rfl⟩
    | op o k ih =>
      intro d hq
      obtain ⟨ws, hws, heq⟩ := ih (o.answer d) (view apply d (o.writes d)) (hq d).2
      refine ⟨o.writes d ++ ws, ?_, ?_⟩
      · intro w hw
        rcases List.mem_append.1 hw with hw | hw
        · exact (hq d).1 w hw
        · exact hws w hw
      · rw [view_append]
        exact heq
  obtain ⟨ws, hws, heq⟩ := key (ExceptT.run p) d hp
  refine ⟨ws, hws, ?_⟩
  simp only [Concurrency.execute, transact] at h
  split at h
  · rename_i r hr
    cases h
    rw [← heq, hr]
  · cases h

/-- A call that fails alone fails with one of its errors. -/
theorem Call.Within.execute_error {p : Call D W K E α} (hp : p.Within P B) {d : D} {e : E}
    (h : Concurrency.execute apply p d = .error e) : B e := by
  have key : ∀ (q : Prog (Stmt D W K E) Stmt.Res (Except E α)) (d : D), q.Within P B →
      Ends B (q.run (sequential apply) d).1 := by
    intro q
    induction q with
    | ret r => exact fun _ hq => hq
    | op o k ih => exact fun d hq => ih (o.answer d) (view apply d (o.writes d)) (hq d).2
  have hends := key (ExceptT.run p) d hp
  simp only [Concurrency.execute, transact] at h
  split at h
  · cases h
  · rename_i hr
    cases h
    rw [hr] at hends
    exact hends

end Calls

/-! ## Several calls at once -/

section Machine

variable {ι D W K E α : Type} [DecidableEq ι]

/-- How far a call has come: what it has written so far, the locks it holds and
what it still has to do; or how it ended.  A cancelled call (a deadlock victim,
a client that went away) has aborted without an error of its own. -/
inductive CallState (D W K E α : Type) : Type 1 where
  | running (own : List W) (held : List K) (code : Prog (Stmt D W K E) Stmt.Res (Except E α))
  | committed (a : α)
  | aborted (e : Option E)

/-- A call that has not done anything yet. -/
def CallState.start (p : Call D W K E α) : CallState D W K E α := .running [] [] (ExceptT.run p)

/-- The locks a call holds; all of them are released when it ends. -/
def CallState.held : CallState D W K E α → List K
  | .running _ held _ => held
  | _ => []

/-- The committed rows and the state of every call. -/
structure State (ι D W K E α : Type) : Type 1 where
  committed : D
  calls : ι → CallState D W K E α

/-- No other call than `i` holds any of the locks `ks`. -/
def State.Free (σ : State ι D W K E α) (i : ι) (ks : List K) : Prop :=
  ∀ j, j ≠ i → ∀ k ∈ ks, k ∉ (σ.calls j).held

/-- Call `i` moves on to `c`. -/
def State.set (σ : State ι D W K E α) (i : ι) (c : CallState D W K E α) : State ι D W K E α :=
  { σ with calls := Function.update σ.calls i c }

/-- One step of call `i`. -/
inductive Step (apply : D → W → D) : State ι D W K E α → ι → State ι D W K E α → Prop where
  /-- The next statement runs, on the latest committed rows and the call's own
  writes, once nobody else holds a lock it needs. -/
  | exec {σ : State ι D W K E α} {i : ι} {own : List W} {held : List K} {o : Stmt D W K E}
      {k : o.Res → Prog (Stmt D W K E) Stmt.Res (Except E α)}
      (hi : σ.calls i = .running own held (.op o k))
      (hfree : σ.Free i (o.locks (view apply σ.committed own))) :
      Step apply σ i (σ.set i (.running (own ++ o.writes (view apply σ.committed own))
        (held ++ o.locks (view apply σ.committed own))
        (k (o.answer (view apply σ.committed own)))))
  /-- A call that has returned commits what it wrote. -/
  | commit {σ : State ι D W K E α} {i : ι} {own : List W} {held : List K} {a : α}
      (hi : σ.calls i = .running own held (.ret (.ok a))) :
      Step apply σ i { (σ.set i (.committed a)) with committed := view apply σ.committed own }
  /-- A call that has raised an error is undone. -/
  | abort {σ : State ι D W K E α} {i : ι} {own : List W} {held : List K} {e : E}
      (hi : σ.calls i = .running own held (.ret (.error e))) :
      Step apply σ i (σ.set i (.aborted (some e)))
  /-- A call may be cancelled at any point. -/
  | cancel {σ : State ι D W K E α} {i : ι} {own : List W} {held : List K}
      {code : Prog (Stmt D W K E) Stmt.Res (Except E α)} (hi : σ.calls i = .running own held code) :
      Step apply σ i (σ.set i (.aborted none))

/-- All calls about to start on the committed rows `d`. -/
def State.initial (d : D) (p : ι → Call D W K E α) : State ι D W K E α :=
  ⟨d, fun i => .start (p i)⟩

/-! ## The state of one call -/

@[simp] theorem State.set_calls_self (σ : State ι D W K E α) (i : ι) (c : CallState D W K E α) :
    (σ.set i c).calls i = c := by
  simp [State.set]

theorem State.set_calls_of_ne (σ : State ι D W K E α) {i j : ι} (c : CallState D W K E α)
    (h : j ≠ i) : (σ.set i c).calls j = σ.calls j := by
  simp [State.set, h]

@[simp] theorem State.set_committed (σ : State ι D W K E α) (i : ι) (c : CallState D W K E α) :
    (σ.set i c).committed = σ.committed := rfl

theorem State.set_set (σ : State ι D W K E α) (i : ι) (c c' : CallState D W K E α) :
    (σ.set i c).set i c' = σ.set i c' := by
  simp [State.set]

/-! ## A call that nobody interrupts -/

/-- A call that has got so far may go on to its end while nobody else holds a
lock. -/
theorem reach_of_run {apply : D → W → D} {p : Prog (Stmt D W K E) Stmt.Res (Except E α)} {a : α}
    {d : D} {σ : State ι D W K E α} {i : ι} {own : List W} {held : List K}
    (hi : σ.calls i = .running own held p) (halone : ∀ j, j ≠ i → (σ.calls j).held = [])
    (hrun : p.run (sequential apply) (view apply σ.committed own) = (.ok a, d)) :
    Relational.Reach (Step apply) Relational.Always σ
      { (σ.set i (.committed a)) with committed := d } := by
  induction p generalizing σ own held with
  | ret r =>
    cases hrun
    exact .next .start trivial (.commit hi)
  | op o k ih =>
    have hfree : σ.Free i (o.locks (view apply σ.committed own)) := by
      intro j hj l _
      rw [halone j hj]
      exact List.not_mem_nil
    have hothers : ∀ c j, j ≠ i → ((σ.set i c).calls j).held = [] := by
      intro c j hj
      rw [State.set_calls_of_ne σ c hj]
      exact halone j hj
    have hstep := Step.exec hi hfree
    have hrest := ih _ (State.set_calls_self σ i (.running
      (own ++ o.writes (view apply σ.committed own))
      (held ++ o.locks (view apply σ.committed own))
      (k (o.answer (view apply σ.committed own))))) (hothers _) (by rw [view_append]; exact hrun)
    rw [State.set_set] at hrest
    exact (Relational.Reach.next .start trivial hstep).trans hrest

/-- **A call may run from its start to its end** while nobody else holds a lock. -/
theorem reach_of_execute {apply : D → W → D} {p : Call D W K E α} {a : α} {d : D}
    {σ : State ι D W K E α} {i : ι} (hi : σ.calls i = .start p)
    (halone : ∀ j, j ≠ i → (σ.calls j).held = [])
    (h : execute apply p σ.committed = .ok (a, d)) :
    Relational.Reach (Step apply) Relational.Always σ
      { (σ.set i (.committed a)) with committed := d } := by
  refine reach_of_run hi halone ?_
  rw [view_nil]
  simp only [execute, transact] at h
  split at h
  · rename_i hr
    cases h
    exact hr
  · cases h

/-! ## One call after the other -/

/-- The database after the calls `is`, one after the other, when all of them go
through. -/
def serial (apply : D → W → D) (p : ι → Call D W K E α) : List ι → D → Option D
  | [], d => some d
  | i :: is, d =>
    match execute apply (p i) d with
    | .ok (_, d') => serial apply p is d'
    | .error _ => none

/-- **One after the other is one of the interleavings.** -/
theorem reach_of_serial {apply : D → W → D} {p : ι → Call D W K E α} {is : List ι}
    (hnodup : is.Nodup) {d d' : D} (h : serial apply p is d = some d') :
    ∃ σ, Relational.Reach (Step apply) Relational.Always (State.initial d p) σ ∧
      σ.committed = d' := by
  have key : ∀ (is : List ι) (σ : State ι D W K E α), is.Nodup →
      (∀ i ∈ is, σ.calls i = .start (p i)) → (∀ j, (σ.calls j).held = []) →
      serial apply p is σ.committed = some d' →
      ∃ σ', Relational.Reach (Step apply) Relational.Always σ σ' ∧ σ'.committed = d' := by
    intro is
    induction is with
    | nil =>
      intro σ _ _ _ hserial
      exact ⟨σ, .start, Option.some.inj hserial⟩
    | cons i is ih =>
      intro σ hnodup hstart hidle hserial
      obtain ⟨hi, hnodup⟩ := List.nodup_cons.1 hnodup
      rw [serial] at hserial
      split at hserial
      · rename_i a d₁ hexec
        have hrun := reach_of_execute (hstart i (List.mem_cons_self ..)) (fun j _ => hidle j) hexec
        have hothers : ∀ j, j ≠ i → ((σ.set i (.committed a)).calls j) = σ.calls j :=
          fun j hj => State.set_calls_of_ne σ _ hj
        have hstart' : ∀ j ∈ is, (σ.set i (.committed a)).calls j = .start (p j) := by
          intro j hj
          rw [hothers j fun hji => hi (hji ▸ hj)]
          exact hstart j (List.mem_cons_of_mem _ hj)
        have hidle' : ∀ j, ((σ.set i (.committed a)).calls j).held = [] := by
          intro j
          by_cases hj : j = i
          · subst hj
            rw [State.set_calls_self]
            rfl
          · rw [hothers j hj]
            exact hidle j
        obtain ⟨σ', hreach, hcommitted⟩ :=
          ih { (σ.set i (.committed a)) with committed := d₁ } hnodup hstart' hidle' hserial
        exact ⟨σ', hrun.trans hreach, hcommitted⟩
      · cases hserial
  exact key is (State.initial d p) hnodup (fun _ _ => rfl) (fun _ => rfl) h

end Machine

end Concurrency
