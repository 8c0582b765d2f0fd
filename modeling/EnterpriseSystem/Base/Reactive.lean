import Mathlib

/-!
# Machines that answer inputs

A machine takes one input after another and answers each of them.  Two machines
are the same from outside when they answer every sequence of inputs alike.

* `Machine σ I O` — one step: the answer and the next state.
* `Machine.observe` — the answers to a sequence of inputs.
* `observe_of_simulates` — a relation that every input preserves, with related
  answers, relates the answers to every sequence.
* `observe_map_eq_of_simulates` — the same where one machine shows what the other
  answers.
* `shown_eq_observe_filter` — inputs that no other answer depends on.
-/

namespace Reactive

variable {σ τ I O O' : Type*}

/-- The answer to one input, and the state after it. -/
abbrev Machine (σ I O : Type*) : Type _ := σ → I → O × σ

namespace Machine

/-- The answers to a sequence of inputs. -/
def observe (f : Machine σ I O) : σ → List I → List O
  | _, [] => []
  | s, i :: is => (f s i).1 :: f.observe (f s i).2 is

@[simp] theorem observe_nil (f : Machine σ I O) (s : σ) : f.observe s [] = [] := rfl

@[simp] theorem observe_cons (f : Machine σ I O) (s : σ) (i : I) (is : List I) :
    f.observe s (i :: is) = (f s i).1 :: f.observe (f s i).2 is := rfl

/-- The state after a sequence of inputs. -/
def after (f : Machine σ I O) (s : σ) (is : List I) : σ := is.foldl (fun s i => (f s i).2) s

/-- Every input keeps the two states related, with related answers. -/
def Simulates (f : Machine σ I O) (g : Machine τ I O') (R : σ → τ → Prop) (A : O → O' → Prop) :
    Prop :=
  ∀ s t i, R s t → A (f s i).1 (g t i).1 ∧ R (f s i).2 (g t i).2

variable {f : Machine σ I O} {g : Machine τ I O'} {R : σ → τ → Prop} {A : O → O' → Prop}
  {s : σ} {t : τ}

/-- **Simulation**: related states answer every sequence alike. -/
theorem observe_of_simulates (h : Simulates f g R A) (hst : R s t) (is : List I) :
    List.Forall₂ A (f.observe s is) (g.observe t is) := by
  induction is generalizing s t with
  | nil => exact .nil
  | cons i is ih =>
    obtain ⟨hanswer, hnext⟩ := h s t i hst
    exact .cons hanswer (ih hnext)

/-- Where the one machine shows what the other one answers. -/
theorem observe_map_eq_of_simulates {shown : O' → O}
    (h : Simulates f g R fun o o' => o = shown o') (hst : R s t) (is : List I) :
    f.observe s is = (g.observe t is).map shown := by
  refine List.forall₂_eq_eq_eq ▸ ?_
  rw [List.forall₂_map_right_iff]
  exact observe_of_simulates h hst is

/-! ## Inputs that nobody looks at -/

/-- The answers to those of the inputs that are looked at. -/
def shown (f : Machine σ I O) (looked : I → Bool) : σ → List I → List O
  | _, [] => []
  | s, i :: is =>
    if looked i then (f s i).1 :: f.shown looked (f s i).2 is
    else f.shown looked (f s i).2 is

/-- **The others might as well not be there**, when a relation between the states with
and without them, which may depend on what is still to come, is kept by all inputs. -/
theorem shown_eq_observe_filter {looked : I → Bool} {R : List I → σ → σ → Prop}
    (hhidden : ∀ s t i is, looked i = false → R (i :: is) s t → R is (f s i).2 t)
    (hlooked : ∀ s t i is, looked i = true → R (i :: is) s t →
      (f s i).1 = (f t i).1 ∧ R is (f s i).2 (f t i).2)
    {is : List I} {s t : σ} (hst : R is s t) :
    f.shown looked s is = f.observe t (is.filter looked) := by
  induction is generalizing s t with
  | nil => rfl
  | cons i is ih =>
    cases hi : looked i with
    | true =>
      obtain ⟨hanswer, hnext⟩ := hlooked s t i is hi hst
      rw [shown, if_pos hi, List.filter_cons_of_pos hi, observe_cons, hanswer, ih hnext]
    | false =>
      have hskip : ¬ looked i = true := Bool.eq_false_iff.1 hi
      rw [shown, if_neg hskip, List.filter_cons_of_neg hskip, ih (hhidden s t i is hi hst)]

end Machine

end Reactive
