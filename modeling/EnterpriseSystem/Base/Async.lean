import EnterpriseSystem.Base.Program
import EnterpriseSystem.Base.Run

/-!
# Asynchronous functions over a shared store

An `async` function performs operations on a shared store and may be interrupted
wherever it awaits one.  There is no transaction around it: what an operation
has done stays done when a later one fails.

* `Task Op Ans E α` — an asynchronous function; `Task.await` awaits one
  operation, which answers or fails.
* `Task.run` — the function with nobody else around, with its equations.
* `Task.Preserves` — what the function leaves alone on every exit.
* `Prog.translate` — the function over other operations.
* `System`, `System.Step` — any number of functions interleaved at their
  awaits, while the surroundings change the store by steps of their own.
* `Performs` — that a step of a run is the answer to a given operation.
-/

namespace Concurrency

open Relational

/-- An asynchronous function over operations that answer or fail. -/
abbrev Task (Op : Type) (Ans : Op → Type) (E α : Type) : Type :=
  ExceptT E (Prog Op fun o => Except E (Ans o)) α

namespace Task

variable {Op : Type} {Ans : Op → Type} {E α β S : Type}

/-- Await one operation. -/
def await (o : Op) : Task Op Ans E (Ans o) := ExceptT.mk (Prog.perform o)

/-- What is computed without awaiting. -/
def ofExcept (r : Except E α) : Task Op Ans E α := ExceptT.mk (pure r)

/-- Computing without awaiting, with the errors renamed. -/
theorem exceptRun_rethrow (f : E → E) (r : Except E α) :
    ExceptT.run (tryCatch (ofExcept r : Task Op Ans E α) fun e => throw (f e)) =
      .ret (r.mapError f) := by
  cases r <;> rfl

/-! ## Alone -/

section

variable (exec : (o : Op) → S → Except E (Ans o) × S)

/-- The whole function with nobody else around. -/
def run (p : Task Op Ans E α) (s : S) : Except E α × S := (ExceptT.run p).run exec s

@[simp] theorem run_pure (a : α) (s : S) : run exec (pure a : Task Op Ans E α) s = (.ok a, s) := rfl

@[simp] theorem run_throw (e : E) (s : S) :
    run exec (throw e : Task Op Ans E α) s = (.error e, s) := rfl

@[simp] theorem run_ofExcept (r : Except E α) (s : S) :
    run exec (ofExcept r : Task Op Ans E α) s = (r, s) := rfl

@[simp] theorem run_await (o : Op) (s : S) :
    run exec (await o : Task Op Ans E (Ans o)) s = exec o s := rfl

/-- **Sequencing**: the second half starts in the store the first one left. -/
@[simp] theorem run_bind (p : Task Op Ans E α) (f : α → Task Op Ans E β) (s : S) :
    run exec (p >>= f) s =
      match run exec p s with
      | (.ok a, s') => run exec (f a) s'
      | (.error e, s') => (.error e, s') := by
  unfold run
  rw [ExceptT.run_bind, Prog.bind_def, Prog.run_bind]
  rcases (ExceptT.run p).run exec s with ⟨r, s'⟩
  cases r <;> rfl

/-- The second half behind a first one that has returned. -/
theorem run_bind_of_ok {p : Task Op Ans E α} {f : α → Task Op Ans E β} {s s' : S} {a : α}
    (h : run exec p s = (.ok a, s')) : run exec (p >>= f) s = run exec (f a) s' := by
  rw [run_bind, h]

/-- There is no second half behind a first one that has thrown. -/
theorem run_bind_of_error {p : Task Op Ans E α} {f : α → Task Op Ans E β} {s s' : S} {e : E}
    (h : run exec p s = (.error e, s')) : run exec (p >>= f) s = (.error e, s') := by
  rw [run_bind, h]

/-- **Catching**: the handler starts in the store the failed half left. -/
@[simp] theorem run_tryCatch (p : Task Op Ans E α) (h : E → Task Op Ans E α) (s : S) :
    run exec (tryCatch p h) s =
      match run exec p s with
      | (.ok a, s') => (.ok a, s')
      | (.error e, s') => run exec (h e) s' := by
  have htry : ExceptT.run (tryCatch p h) =
      (ExceptT.run p).bind fun r => match r with
        | .ok a => pure (.ok a)
        | .error e => ExceptT.run (h e) := rfl
  unfold run
  rw [htry, Prog.run_bind]
  rcases (ExceptT.run p).run exec s with ⟨r, s'⟩
  cases r <;> rfl

/-- A sequence returns exactly when both halves do. -/
theorem run_bind_eq_ok {p : Task Op Ans E α} {f : α → Task Op Ans E β} {s s'' : S} {b : β} :
    run exec (p >>= f) s = (.ok b, s'') ↔
      ∃ a s', run exec p s = (.ok a, s') ∧ run exec (f a) s' = (.ok b, s'') := by
  rw [run_bind]
  rcases run exec p s with ⟨r, s'⟩
  cases r with
  | error e =>
    constructor
    · exact nofun
    · rintro ⟨_, _, ⟨⟩, -⟩
  | ok a =>
    constructor
    · exact fun h => ⟨a, s', rfl, h⟩
    · rintro ⟨_, _, ⟨⟩, h⟩
      exact h

@[simp] theorem run_ite (c : Prop) [Decidable c] (p p' : Task Op Ans E α) (s : S) :
    run exec (if c then p else p') s = if c then run exec p s else run exec p' s := by
  split <;> rfl

/-! ### What a function leaves alone -/

/-- The function leaves `f` of the store as it is, whether it returns or throws. -/
def Preserves {γ : Type} (f : S → γ) (p : Task Op Ans E α) : Prop :=
  ∀ s, f (run exec p s).2 = f s

section

variable {exec} {γ : Type} {f : S → γ}

theorem Preserves.pure (a : α) : Preserves exec f (Pure.pure a : Task Op Ans E α) := fun _ => rfl

theorem Preserves.throw (e : E) : Preserves exec f (MonadExcept.throw e : Task Op Ans E α) :=
  fun _ => rfl

theorem Preserves.ofExcept (r : Except E α) :
    Preserves exec f (Task.ofExcept r : Task Op Ans E α) := fun _ => rfl

theorem Preserves.bind {p : Task Op Ans E α} {g : α → Task Op Ans E β} (hp : Preserves exec f p)
    (hg : ∀ a, Preserves exec f (g a)) : Preserves exec f (p >>= g) := by
  intro s
  rw [run_bind]
  have hfirst := hp s
  rcases hr : run exec p s with ⟨r, s'⟩
  rw [hr] at hfirst
  cases r with
  | error e => exact hfirst
  | ok a => exact (hg a s').trans hfirst

theorem Preserves.tryCatch {p : Task Op Ans E α} {h : E → Task Op Ans E α}
    (hp : Preserves exec f p) (hh : ∀ e, Preserves exec f (h e)) :
    Preserves exec f (MonadExcept.tryCatch p h) := by
  intro s
  have hrun := run_tryCatch exec p h s
  have hfirst := hp s
  rcases hr : run exec p s with ⟨r, s'⟩
  rw [hr] at hrun hfirst
  cases r with
  | error e => exact (congrArg (fun p => f p.2) hrun).trans ((hh e s').trans hfirst)
  | ok a => exact (congrArg (fun p => f p.2) hrun).trans hfirst

theorem Preserves.ite {c : Prop} [Decidable c] {p p' : Task Op Ans E α} (hp : Preserves exec f p)
    (hp' : Preserves exec f p') : Preserves exec f (if c then p else p') := by
  split
  · exact hp
  · exact hp'

end

end

end Task

/-! ## The monad -/

section

variable {Op : Type} {Res : Op → Type}

theorem Prog.bind_ret {α : Type} (p : Prog Op Res α) : p.bind .ret = p := by
  induction p with
  | ret a => rfl
  | op o k ih => exact congrArg (Prog.op o) (funext ih)

theorem Prog.bind_bind {α β γ : Type} (p : Prog Op Res α) (f : α → Prog Op Res β)
    (g : β → Prog Op Res γ) : (p.bind f).bind g = p.bind fun a => (f a).bind g := by
  induction p with
  | ret a => rfl
  | op o k ih => exact congrArg (Prog.op o) (funext ih)

instance : LawfulMonad (Prog Op Res) :=
  LawfulMonad.mk' _ Prog.bind_ret (fun _ _ => rfl) Prog.bind_bind

end

/-! ## Over other operations -/

section

variable {Op Op' : Type} {Res : Op → Type} {Res' : Op' → Type} {α S S' : Type}

/-- A program with each operation carried out by a program over other operations. -/
def Prog.translate (f : (o : Op) → Prog Op' Res' (Res o)) : Prog Op Res α → Prog Op' Res' α
  | .ret a => .ret a
  | .op o k => (f o).bind fun r => (k r).translate f

/-- **The translation runs as the program does** when each operation does. -/
theorem Prog.run_translate {f : (o : Op) → Prog Op' Res' (Res o)}
    {exec : (o : Op) → S → Res o × S} {exec' : (o : Op') → S' → Res' o × S'} (embed : S → S')
    (hf : ∀ o s, (f o).run exec' (embed s) = ((exec o s).1, embed (exec o s).2))
    (p : Prog Op Res α) (s : S) :
    (p.translate f).run exec' (embed s) = ((p.run exec s).1, embed (p.run exec s).2) := by
  induction p generalizing s with
  | ret a => rfl
  | op o k ih =>
    show ((f o).bind fun r => (k r).translate f).run exec' (embed s) = _
    rw [Prog.run_bind, hf]
    exact ih _ _

end

/-! ## Together -/

/-- Functions in progress on a shared store. -/
structure System (ι : Type) (S Op : Type) (Ans : Op → Type) (E α : Type) where
  shared : S
  tasks : ι → Prog Op (fun o => Except E (Ans o)) (Except E α)

namespace System

variable {ι : Type} {S Op : Type} {Ans : Op → Type} {E α : Type}
variable [DecidableEq ι]

/-- Who moves: one of the functions, or the surroundings. -/
abbrev Label (ι : Type) : Type := Option ι

/-- One step: a function performs the operation it awaits, or the surroundings
change the store. -/
inductive Step (exec : (o : Op) → S → Except E (Ans o) × S) (around : S → S → Prop) :
    System ι S Op Ans E α → Label ι → System ι S Op Ans E α → Prop where
  | perform {σ : System ι S Op Ans E α} {i : ι} {o : Op}
      {k : Except E (Ans o) → Prog Op (fun o => Except E (Ans o)) (Except E α)} :
      σ.tasks i = .op o k →
      Step exec around σ (some i)
        ⟨(exec o σ.shared).2, Function.update σ.tasks i (k (exec o σ.shared).1)⟩
  | around {σ : System ι S Op Ans E α} {s : S} :
      around σ.shared s → Step exec around σ none ⟨s, σ.tasks⟩

/-- **A step of `i`**: it performs what it awaits, and the others stay where they are. -/
theorem Step.of_some {exec : (o : Op) → S → Except E (Ans o) × S} {around : S → S → Prop}
    {σ σ' : System ι S Op Ans E α} {i : ι} (h : Step exec around σ (some i) σ') :
    ∃ o k, σ.tasks i = .op o k ∧ σ'.shared = (exec o σ.shared).2 ∧
      σ'.tasks i = k (exec o σ.shared).1 ∧ ∀ j, j ≠ i → σ'.tasks j = σ.tasks j := by
  generalize hl : some i = l at h
  cases h with
  | perform hop =>
    cases hl
    exact ⟨_, _, hop, rfl, Function.update_self .., fun j hj => Function.update_of_ne hj ..⟩
  | around _ => exact nomatch hl

/-- A step of the surroundings: nobody has moved. -/
theorem Step.of_none {exec : (o : Op) → S → Except E (Ans o) × S} {around : S → S → Prop}
    {σ σ' : System ι S Op Ans E α} (h : Step exec around σ none σ') :
    around σ.shared σ'.shared ∧ σ'.tasks = σ.tasks := by
  generalize hl : (none : Label ι) = l at h
  cases h with
  | perform _ => exact nomatch hl
  | around hmoves => exact ⟨hmoves, rfl⟩

/-- All functions before their first operation. -/
def start (s : S) (tasks : ι → Task Op Ans E α) : System ι S Op Ans E α :=
  ⟨s, fun i => ExceptT.run (tasks i)⟩

/-- `i` performs what it awaits, if anything. -/
def next (exec : (o : Op) → S → Except E (Ans o) × S) (σ : System ι S Op Ans E α) (i : ι) :
    System ι S Op Ans E α :=
  match σ.tasks i with
  | .ret _ => σ
  | .op o k => ⟨(exec o σ.shared).2, Function.update σ.tasks i (k (exec o σ.shared).1)⟩

/-- The steps of a schedule. -/
def schedule (exec : (o : Op) → S → Except E (Ans o) × S) (σ : System ι S Op Ans E α) :
    List ι → List (System ι S Op Ans E α × Label ι × System ι S Op Ans E α)
  | [] => []
  | i :: is => (σ, some i, σ.next exec i) :: schedule exec (σ.next exec i) is

/-- Nobody is scheduled after it has returned. -/
def awaits (exec : (o : Op) → S → Except E (Ans o) × S) (σ : System ι S Op Ans E α) :
    List ι → Bool
  | [] => true
  | i :: is => (σ.tasks i).result?.isNone && awaits exec (σ.next exec i) is

/-- A schedule that only wakes whoever awaits something is a run. -/
theorem run_schedule {exec : (o : Op) → S → Except E (Ans o) × S} {around : S → S → Prop}
    {σ : System ι S Op Ans E α} {is : List ι} (h : σ.awaits exec is = true) :
    Run (Step exec around) Always σ (σ.schedule exec is) (is.foldl (next exec) σ) := by
  induction is generalizing σ with
  | nil => exact .start
  | cons i is ih =>
    simp only [awaits, Bool.and_eq_true, Option.isNone_iff_eq_none] at h
    have hstep : Step exec around σ (some i) (σ.next exec i) := by
      unfold next
      cases hop : σ.tasks i with
      | ret a => rw [hop] at h; exact nomatch h.1
      | op o k => exact .perform hop
    exact (Run.next .start trivial hstep).append (ih h.2)

/-- What `i` has returned or thrown, once it has. -/
def result? (σ : System ι S Op Ans E α) (i : ι) : Option (Except E α) := (σ.tasks i).result?

/-- In the step from `σ`, `i` performs `o`. -/
def Performs (σ : System ι S Op Ans E α) (i : ι) (o : Op) : Prop := ∃ k, σ.tasks i = .op o k

end System

end Concurrency
