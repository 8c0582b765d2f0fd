import Mathlib

/-!
# Objects whose methods throw

An object is a state, and a method of it is a computation that reads and assigns
the fields and either returns or throws.  An assignment made before a throw
stays: whoever catches the error goes on with the object as it was left.

* `Method σ ε α` — a method on an object `σ` that throws errors `ε` and returns
  an `α`; written in `do` notation, with `call_bind` and its companions as the
  equations of a call.
* `Method.after` — the object a call leaves behind, returned or thrown.
* `Method.onPart` — a method of a part, as a method of the whole.
-/

namespace Objects

/-- A method of an object with state `σ`. -/
abbrev Method (σ ε α : Type) : Type := ExceptT ε (StateM σ) α

namespace Method

variable {σ τ ε α β : Type}

/-- Call the method on an object: its answer and the object after it. -/
def call (m : Method σ ε α) (s : σ) : Except ε α × σ := (ExceptT.run m).run s

/-- The object a call leaves behind. -/
def after (m : Method σ ε α) (s : σ) : σ := (m.call s).2

/-- The call returns. -/
def Succeeds (m : Method σ ε α) (s : σ) : Prop := ∃ a, (m.call s).1 = .ok a

/-- The call throws `e`. -/
def Throws (m : Method σ ε α) (s : σ) (e : ε) : Prop := (m.call s).1 = .error e

theorem Throws.not_succeeds {m : Method σ ε α} {s : σ} {e : ε} (h : m.Throws s e) :
    ¬ m.Succeeds s := by
  rintro ⟨a, ha⟩
  exact nomatch h.symm.trans ha

/-! ## The equations of a call -/

@[simp] theorem call_pure (a : α) (s : σ) : (pure a : Method σ ε α).call s = (.ok a, s) := rfl

@[simp] theorem call_throw (e : ε) (s : σ) :
    (throw e : Method σ ε α).call s = (.error e, s) := rfl

@[simp] theorem call_get (s : σ) : (get : Method σ ε σ).call s = (.ok s, s) := rfl

@[simp] theorem call_set (s' s : σ) : (set s' : Method σ ε PUnit).call s = (.ok ⟨⟩, s') := rfl

@[simp] theorem call_modify (f : σ → σ) (s : σ) :
    (modify f : Method σ ε PUnit).call s = (.ok ⟨⟩, f s) := rfl

/-- **Sequencing**: the second half starts from the object the first one left,
unless the first one threw. -/
@[simp] theorem call_bind (m : Method σ ε α) (f : α → Method σ ε β) (s : σ) :
    (m >>= f).call s =
      match m.call s with
      | (.ok a, s') => (f a).call s'
      | (.error e, s') => (.error e, s') := by
  have hrun : (m >>= f).call s =
      (match (m.call s).1 with
        | .ok a => (f a).call (m.call s).2
        | .error e => (.error e, (m.call s).2)) := by
    unfold call
    rw [ExceptT.run_bind, StateT.run_bind]
    show (let p := (ExceptT.run m).run s; _) = _
    rcases (ExceptT.run m).run s with ⟨r, s'⟩
    cases r <;> rfl
  rw [hrun]
  rcases m.call s with ⟨r, s'⟩
  cases r <;> rfl

@[simp] theorem call_ite (c : Prop) [Decidable c] (m m' : Method σ ε α) (s : σ) :
    (if c then m else m').call s = if c then m.call s else m'.call s := by
  split <;> rfl

/-- What a computation without a state answers. -/
def ofExcept (r : Except ε α) : Method σ ε α := ExceptT.mk (pure r)

@[simp] theorem call_ofExcept (r : Except ε α) (s : σ) :
    (ofExcept r : Method σ ε α).call s = (r, s) := rfl

/-! ## Methods of a part -/

/-- A method of the part `get s`, as a method of the whole. -/
def onPart (get : σ → τ) (put : σ → τ → σ) (m : Method τ ε α) : Method σ ε α :=
  ExceptT.mk fun s => ((m.call (get s)).1, put s (m.call (get s)).2)

@[simp] theorem call_onPart (get : σ → τ) (put : σ → τ → σ) (m : Method τ ε α) (s : σ) :
    (onPart get put m).call s = ((m.call (get s)).1, put s (m.call (get s)).2) := rfl

end Method

end Objects
