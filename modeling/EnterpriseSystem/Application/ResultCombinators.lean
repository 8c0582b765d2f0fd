import EnterpriseSystem.Identity.Values

/-!
# Combining results

`Result.all` of `src/domain/common/result.ts` and `Result.combine` of
`src/application/result.ts`, over the accessors of the two classes.

* `Property` — what a name stands for on a class, and what a call of it does.
* `DomainResult`, `ApplicationResult` — the two classes.
* `IsCollected` — all values in order, or the error of the first failure.
* `combine_eq_of_isCollected` — what `Result.combine` returns.
* `all_cons` — `Result.all` throws at its first element: it calls the getter `isErr`.
* `combinatorsCollect_iff` — so the two agree on the empty list only.
-/

namespace EnterpriseSystem.Application

open Identity

variable {T E : Type}

/-! ## The classes -/

/-- A property of an object: a getter with the value that it has, which is no function, or a
method. -/
inductive Property (A : Type) where
  | getter (value : A)
  | method (body : Except Thrown A)

/-- `object.name()`. -/
def Property.call {A : Type} (name : String) : Property A → Except Thrown A
  | .getter _ => .error (.typeError s!"{name} is not a function")
  | .method body => body

/-- `Result` of the domain. -/
inductive DomainResult (T E : Type) where
  | ok (value : T)
  | fail (error : E)

namespace DomainResult

/-- `get isOk()`. -/
def isOk : DomainResult T E → Bool
  | ok _ => true
  | fail _ => false

/-- `get isErr()`. -/
def isErr (r : DomainResult T E) : Property Bool := .getter !r.isOk

/-- `get value()`. -/
def value : DomainResult T E → Except Thrown T
  | ok value => .ok value
  | fail _ => .error (.error "Cannot access value on a failed Result. Use error instead.")

/-- `get error()`. -/
def error : DomainResult T E → Except Thrown E
  | ok _ => .error (.error "Cannot access error on a successful Result. Use value instead.")
  | fail error => .ok error

/-- The loop of `all`, with the values that it has pushed. -/
def allFrom (values : List T) : List (DomainResult T E) →
    Except Thrown (DomainResult (List T) E)
  | [] => return .ok values
  | result :: results => do
    if ← result.isErr.call "result.isErr" then return .fail (← result.error)
    allFrom (values ++ [← result.value]) results

/-- `Result.all`. -/
def all (results : List (DomainResult T E)) : Except Thrown (DomainResult (List T) E) :=
  allFrom [] results

/-- The result of that outcome. -/
def of : Except E T → DomainResult T E
  | .ok value => ok value
  | .error e => fail e

end DomainResult

/-- `Result` of the application. -/
inductive ApplicationResult (T E : Type) where
  | ok (value : T)
  | fail (error : E)

namespace ApplicationResult

/-- `isFailure`. -/
def isFailure : ApplicationResult T E → Bool
  | ok _ => false
  | fail _ => true

/-- `getValue()`. -/
def getValue : ApplicationResult T E → Except Thrown T
  | ok value => .ok value
  | fail _ => .error (.error "Cannot retrieve value from a failed result.")

/-- `getError()`. -/
def getError : ApplicationResult T E → Except Thrown E
  | ok _ => .error (.error "Cannot retrieve error from a successful result.")
  | fail error => .ok error

/-- The loop of `combine` over what is left of the results, and the `map` behind it. -/
def combineFrom (results : List (ApplicationResult T E)) : List (ApplicationResult T E) →
    Except Thrown (ApplicationResult (List T) E)
  | [] => do return .ok (← results.mapM getValue)
  | result :: rest => do
    if result.isFailure then return .fail (← result.getError)
    combineFrom results rest

/-- `Result.combine`. -/
def combine (results : List (ApplicationResult T E)) :
    Except Thrown (ApplicationResult (List T) E) :=
  combineFrom results results

/-- The result of that outcome. -/
def of : Except E T → ApplicationResult T E
  | .ok value => ok value
  | .error e => fail e

end ApplicationResult

/-! ## What a combinator is for -/

/-- **The outcome of some outcomes**: all values in order, or the error of the first
failure. -/
def IsCollected (outcomes : List (Except E T)) : Except E (List T) → Prop
  | .ok values => outcomes = values.map .ok
  | .error e => ∃ (values : List T) (rest : List (Except E T)),
      outcomes = values.map .ok ++ .error e :: rest

/-- Every list has an outcome. -/
theorem exists_isCollected (outcomes : List (Except E T)) :
    ∃ outcome, IsCollected outcomes outcome := by
  induction outcomes with
  | nil => exact ⟨.ok [], rfl⟩
  | cons first outcomes ih =>
    cases first with
    | error e => exact ⟨.error e, [], outcomes, rfl⟩
    | ok value =>
      obtain ⟨_ | values, h⟩ := ih
      · obtain ⟨values, rest, rfl⟩ := h
        exact ⟨.error _, value :: values, rest, rfl⟩
      · obtain rfl : outcomes = values.map .ok := h
        exact ⟨.ok (value :: values), rfl⟩

/-- **The two combinators** return that outcome, and do not throw. -/
def CombinatorsCollect (outcomes : List (Except E T)) : Prop :=
  ∃ outcome, IsCollected outcomes outcome ∧
    DomainResult.all (outcomes.map .of) = .ok (.of outcome) ∧
    ApplicationResult.combine (outcomes.map .of) = .ok (.of outcome)

/-! ## What they do -/

namespace ApplicationResult

/-- `getValue` is legal on successes. -/
theorem mapM_getValue (values : List T) :
    (values.map fun v => (ok v : ApplicationResult T E)).mapM getValue = .ok values := by
  induction values with
  | nil => rfl
  | cons value values ih => simp [List.mapM_cons, getValue, ih, bind, Except.bind, pure, Except.pure]

/-- The loop passes over successes. -/
theorem combineFrom_append (results : List (ApplicationResult T E)) (values : List T)
    (rest : List (ApplicationResult T E)) :
    combineFrom results (values.map ok ++ rest) = combineFrom results rest := by
  induction values with
  | nil => rfl
  | cons value values ih => simpa [combineFrom, isFailure] using ih

/-- **`Result.combine`** returns the outcome, for every list. -/
theorem combine_eq_of_isCollected {outcomes : List (Except E T)} {outcome : Except E (List T)}
    (h : IsCollected outcomes outcome) : combine (outcomes.map of) = .ok (of outcome) := by
  cases outcome with
  | ok values =>
    obtain rfl : outcomes = values.map .ok := h
    have hloop := combineFrom_append (values.map ok) values ([] : List (ApplicationResult T E))
    rw [List.append_nil] at hloop
    rw [List.map_map, combine]
    refine hloop.trans ?_
    rw [combineFrom, mapM_getValue]
    rfl
  | error e =>
    obtain ⟨values, rest, rfl⟩ := h
    rw [List.map_append, List.map_map, combine]
    exact combineFrom_append _ values _

end ApplicationResult

/-- **`Result.all`** throws at the first element, be it a success or a failure. -/
theorem DomainResult.all_cons (result : DomainResult T E) (results : List (DomainResult T E)) :
    all (result :: results) = .error (.typeError "result.isErr is not a function") := rfl

/-- **The combinators** return the outcome of the empty list, and of no other. -/
theorem combinatorsCollect_iff (outcomes : List (Except E T)) :
    CombinatorsCollect outcomes ↔ outcomes = [] := by
  constructor
  · rintro ⟨outcome, -, hall, -⟩
    cases outcomes with
    | nil => rfl
    | cons first outcomes => exact absurd hall nofun
  · rintro rfl
    obtain ⟨outcome, h⟩ := exists_isCollected ([] : List (Except E T))
    refine ⟨outcome, h, ?_, ApplicationResult.combine_eq_of_isCollected h⟩
    cases outcome with
    | ok values =>
      obtain rfl : values = [] := List.map_eq_nil_iff.1 (Eq.symm h)
      rfl
    | error e =>
      obtain ⟨values, rest, h⟩ := h
      exact absurd h.symm (by simp)

/-- One success is enough. -/
theorem not_combinatorsCollect :
    ¬ ∀ outcomes : List (Except String ℕ), CombinatorsCollect outcomes := by
  intro h
  obtain ⟨outcome, -, hall, -⟩ := h [.ok 1]
  exact absurd hall nofun

end EnterpriseSystem.Application
