import Mathlib

/-!
# Programs over a shared store

A program that works on a store is a tree of operations: it has returned, or it
performs one operation and continues with the operation's answer.  Writing it
this way fixes the points at which a concurrent execution may switch to another
program, while a sequential execution just runs the tree.

* `Prog Op Res` — programs over operations `o : Op` answering in `Res o`, with
  their monad, so that they are written in `do` notation; `ExceptT` over it
  gives programs that raise and catch errors.
* `Prog.run` — execution from start to end against a handler.
* `transact` — execution as one transaction: an error that is not caught undoes
  everything.  `transact_bind` and its companions are its equations.
-/

namespace Concurrency

universe u

/-- A program over the operations `Op`, each answering in its own type. -/
inductive Prog (Op : Type u) (Res : Op → Type) (α : Type) : Type u where
  /-- The program has returned. -/
  | ret (a : α)
  /-- It performs `o` and goes on with the answer. -/
  | op (o : Op) (k : Res o → Prog Op Res α)

namespace Prog

variable {Op : Type u} {Res : Op → Type} {α β γ : Type}

/-- Run `f` on what `p` returns. -/
def bind : Prog Op Res α → (α → Prog Op Res β) → Prog Op Res β
  | ret a, f => f a
  | op o k, f => op o fun r => (k r).bind f

instance : Monad (Prog Op Res) where
  pure := ret
  bind := bind

@[simp] theorem ret_bind (a : α) (f : α → Prog Op Res β) : (ret a).bind f = f a := rfl

@[simp] theorem op_bind (o : Op) (k : Res o → Prog Op Res α) (f : α → Prog Op Res β) :
    (op o k).bind f = op o fun r => (k r).bind f := rfl

theorem bind_def (p : Prog Op Res α) (f : α → Prog Op Res β) : p >>= f = p.bind f := rfl

/-- Perform one operation. -/
def perform (o : Op) : Prog Op Res (Res o) := op o ret

/-- What a program has returned, once it has. -/
def result? : Prog Op Res α → Option α
  | ret a => some a
  | op _ _ => none

/-! ## Sequential execution -/

variable {S : Type}

/-- Execution from start to end against a handler of the operations. -/
def run (exec : (o : Op) → S → Res o × S) : Prog Op Res α → S → α × S
  | ret a, s => (a, s)
  | op o k, s => (k (exec o s).1).run exec (exec o s).2

theorem run_bind (exec : (o : Op) → S → Res o × S) (p : Prog Op Res α)
    (f : α → Prog Op Res β) (s : S) :
    (p.bind f).run exec s = (f (p.run exec s).1).run exec (p.run exec s).2 := by
  induction p generalizing s with
  | ret a => rfl
  | op o k ih => exact ih _ _

end Prog

/-! ## Execution as a transaction -/

/-- A computation of two halves succeeds exactly when both do. -/
theorem bind_eq_ok {E α β : Type} {x : Except E α} {f : α → Except E β} {b : β} :
    x >>= f = .ok b ↔ ∃ a, x = .ok a ∧ f a = .ok b := by
  cases x with
  | error e =>
    constructor
    · exact fun h => nomatch h
    · exact fun ⟨_, h, _⟩ => nomatch h
  | ok a =>
    constructor
    · exact fun h => ⟨a, rfl, h⟩
    · rintro ⟨_, h, h'⟩
      cases h
      exact h'

/-- A sequence returns when its parts do. -/
theorem exists_bind_eq_ok {E α β : Type} {x : Except E α} {f : α → Except E β} {a : α}
    (hx : x = .ok a) (hf : ∃ b, f a = .ok b) : ∃ b, x >>= f = .ok b := by
  obtain ⟨b, hb⟩ := hf
  exact ⟨b, bind_eq_ok.2 ⟨a, hx, hb⟩⟩

section Transact

variable {Op : Type u} {Res : Op → Type} {S E α β : Type}
variable (exec : (o : Op) → S → Res o × S)

/-- Reading off that a computation has succeeded, and with which answer. -/
theorem exists_ok_of_toOption {E α S : Type} {r : Except E (α × S)} {a : α}
    (h : r.toOption.map Prod.fst = some a) : ∃ s, r = .ok (a, s) := by
  cases r with
  | error e => cases h
  | ok r =>
    obtain ⟨a', s⟩ := r
    cases h
    exact ⟨s, rfl⟩

/-- Execution as one transaction: the state after it when it returns, and only
the error when it raises one. -/
def transact (p : ExceptT E (Prog Op Res) α) (s : S) : Except E (α × S) :=
  match (ExceptT.run p).run exec s with
  | (.ok a, s') => .ok (a, s')
  | (.error e, _) => .error e

@[simp] theorem transact_pure (a : α) (s : S) :
    transact exec (pure a : ExceptT E (Prog Op Res) α) s = .ok (a, s) := rfl

@[simp] theorem transact_throw (e : E) (s : S) :
    transact exec (throw e : ExceptT E (Prog Op Res) α) s = .error e := rfl

/-- **Sequencing**: the second half starts where the first one ended, and an
error of the first half is the error of the whole. -/
theorem transact_bind (p : ExceptT E (Prog Op Res) α) (f : α → ExceptT E (Prog Op Res) β)
    (s : S) :
    transact exec (p >>= f) s =
      match transact exec p s with
      | .ok (a, s') => transact exec (f a) s'
      | .error e => .error e := by
  unfold transact
  rw [ExceptT.run_bind, Prog.bind_def, Prog.run_bind]
  rcases (ExceptT.run p).run exec s with ⟨r, s'⟩
  cases r <;> rfl

/-- A transaction of two halves goes through exactly when both do. -/
theorem transact_bind_eq_ok {p : ExceptT E (Prog Op Res) α}
    {f : α → ExceptT E (Prog Op Res) β} {s : S} {b : β} {s'' : S} :
    transact exec (p >>= f) s = .ok (b, s'') ↔
      ∃ a s', transact exec p s = .ok (a, s') ∧ transact exec (f a) s' = .ok (b, s'') := by
  rw [transact_bind]
  rcases transact exec p s with e | ⟨a, s'⟩
  · simp
  · constructor
    · exact fun h => ⟨a, s', rfl, h⟩
    · rintro ⟨_, _, h₁, h₂⟩
      cases h₁
      exact h₂

end Transact

end Concurrency
