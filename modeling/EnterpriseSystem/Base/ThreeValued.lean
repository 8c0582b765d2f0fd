import Mathlib

/-!
# SQL's three-valued logic

A SQL condition is true, false or unknown; a comparison with `NULL` is unknown.
`NULL` is `none`, so a nullable value is an `Option` and a condition an
`Option Bool`.  An `IF`, a `WHERE` and a `JOIN` go ahead only on *true*
(`Holds`), while a `CHECK` constraint stops a row only on *false*.

The connectives are Kleene's: `and`, `or` and `not` of unknown are unknown
unless the other operand decides.
-/

namespace Relational

/-- A SQL condition. -/
abbrev Cond := Option Bool

namespace Cond

/-- `IF`, `WHERE`: only a condition that is true goes ahead. -/
def Holds (c : Cond) : Prop := c = some true

instance (c : Cond) : Decidable c.Holds := inferInstanceAs (Decidable (_ = _))

/-- `CHECK`: only a condition that is false stops the row. -/
def Passes (c : Cond) : Prop := c ≠ some false

instance (c : Cond) : Decidable c.Passes := inferInstanceAs (Decidable (_ ≠ _))

/-- `NOT`. -/
def not (c : Cond) : Cond := c.map (!·)

/-- `AND`. -/
def and : Cond → Cond → Cond
  | some false, _ => some false
  | _, some false => some false
  | some true, some true => some true
  | _, _ => none

/-- `OR`. -/
def or : Cond → Cond → Cond
  | some true, _ => some true
  | _, some true => some true
  | some false, some false => some false
  | _, _ => none

@[simp] theorem holds_some (b : Bool) : Holds (some b) ↔ b = true := by simp [Holds]

@[simp] theorem not_holds_none : ¬ Holds none := by simp [Holds]

@[simp] theorem holds_and (c d : Cond) : (c.and d).Holds ↔ c.Holds ∧ d.Holds := by
  rcases c with _ | (_ | _) <;> rcases d with _ | (_ | _) <;> simp [and, Holds]

@[simp] theorem holds_or (c d : Cond) : (c.or d).Holds ↔ c.Holds ∨ d.Holds := by
  rcases c with _ | (_ | _) <;> rcases d with _ | (_ | _) <;> simp [or, Holds]

@[simp] theorem holds_not (c : Cond) : c.not.Holds ↔ c = some false := by
  rcases c with _ | (_ | _) <;> simp [not, Holds]

end Cond

section Comparisons

variable {α : Type} [DecidableEq α]

/-- `a = b`. -/
def sqlEq (a b : Option α) : Cond :=
  match a, b with
  | some x, some y => some (decide (x = y))
  | _, _ => none

/-- `a != b`. -/
def sqlNe (a b : Option α) : Cond := (sqlEq a b).not

/-- `a IN (v₁, …, vₙ)` for non-null `vᵢ`. -/
def sqlIn (a : Option α) (values : List α) : Cond := a.map fun x => decide (x ∈ values)

/-- `a NOT IN (v₁, …, vₙ)` for non-null `vᵢ`. -/
def sqlNotIn (a : Option α) (values : List α) : Cond := (sqlIn a values).not

@[simp] theorem sqlEq_some (x y : α) : sqlEq (some x) (some y) = some (decide (x = y)) := rfl

@[simp] theorem sqlEq_none_left (b : Option α) : sqlEq none b = none := rfl

@[simp] theorem sqlEq_none_right (a : Option α) : sqlEq a none = none := by cases a <;> rfl

/-- `a = b` is true only of two non-null equal values. -/
@[simp] theorem holds_sqlEq {a b : Option α} :
    (sqlEq a b).Holds ↔ ∃ x, a = some x ∧ b = some x := by
  cases a <;> cases b <;> simp [eq_comm]

/-- `a != b` is true only of two non-null different values. -/
@[simp] theorem holds_sqlNe {a b : Option α} :
    (sqlNe a b).Holds ↔ ∃ x y, a = some x ∧ b = some y ∧ x ≠ y := by
  cases a <;> cases b <;> simp [sqlNe, Cond.not]

@[simp] theorem holds_sqlIn {a : Option α} {values : List α} :
    (sqlIn a values).Holds ↔ ∃ x, a = some x ∧ x ∈ values := by
  cases a <;> simp [sqlIn]

/-- `a NOT IN (…)` is unknown for `NULL`, so it holds only of a value outside
the list. -/
@[simp] theorem holds_sqlNotIn {a : Option α} {values : List α} :
    (sqlNotIn a values).Holds ↔ ∃ x, a = some x ∧ x ∉ values := by
  cases a <;> simp [sqlNotIn, sqlIn, Cond.not]

end Comparisons

end Relational
