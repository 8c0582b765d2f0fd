import EnterpriseSystem.Base.Forest
import EnterpriseSystem.Application.CreateUser

/-!
# Reports of validation errors

`formatValidationErrors` of `src/application/decorators/validate.decorator.ts`, and the
`exceptionFactory` of `src/presentation/rest/pipes/validation.pipe.ts`.

* `ValidationError`, `formatValidationErrors`, `exceptionFactory` — the errors, and the
  two reports of them.
* `formatted`, `fieldErrors` — the reports, with the node that each of them is of.
* `ReportsEachOnce` — every node with constraints is reported once, under its dotted path
  and with all its messages, and no other node is.
* `formatted_reports_iff` — so does `formatValidationErrors`, below roots with a name.
* `bothReport_iff` — the factory does for flat errors only.
* `formatValidationErrors_createUser` — the details of a refused `CreateUserDto`.
-/

namespace EnterpriseSystem.Presentation

open Forests Application

variable {V : Type}

/-! ## The two reports -/

/-- `ValidationError`, without its children; `constraints` is a record of messages. -/
structure ErrorInfo (V : Type) where
  property : String
  value : V
  constraints : Option (List (String × String))

/-- `ValidationError`, with no children where the field is absent. -/
abbrev ValidationError (V : Type) : Type := RoseTree (ErrorInfo V)

/-- `Object.values(constraints).join('; ')`. -/
def joinedMessages (constraints : List (String × String)) : String :=
  "; ".intercalate (constraints.map Prod.snd)

/-- `field`. -/
def fieldPath (parentPath property : String) : String :=
  if parentPath = "" then property else parentPath ++ "." ++ property

/-- The report of one error, if it has constraints. -/
def ownReport (parentPath : String) (e : ErrorInfo V) : List FormattedError :=
  match e.constraints with
  | some constraints =>
    [{ field := fieldPath parentPath e.property
       message := joinedMessages constraints
       constraints := constraints.map Prod.fst }]
  | none => []

mutual

/-- One round of the loop. -/
def formatValidationError (parentPath : String) : ValidationError V → List FormattedError
  | .node e children =>
    ownReport parentPath e ++
      if children.length > 0 then
        formatValidationErrors (fieldPath parentPath e.property) children
      else []

/-- `formatValidationErrors`. -/
def formatValidationErrors (parentPath : String) : List (ValidationError V) → List FormattedError
  | [] => []
  | error :: errors =>
    formatValidationError parentPath error ++ formatValidationErrors parentPath errors

end

/-- An entry of `errors` in the body of the exception. -/
structure FieldError (V : Type) where
  field : String
  message : String
  value : V

/-- The body of the `BadRequestException`. -/
structure ProblemDetails (V : Type) where
  type : String
  title : String
  status : ℕ
  detail : String
  code : String
  errors : List (FieldError V)

/-- The entry of one error. -/
def fieldError (e : ErrorInfo V) : FieldError V :=
  { field := e.property, message := joinedMessages (e.constraints.getD []), value := e.value }

/-- `exceptionFactory`. -/
def exceptionFactory (errors : List (ValidationError V)) : ProblemDetails V :=
  { type := "https://enterprise.system/errors/validation"
    title := "Validation Error"
    status := 422
    detail := "The request body contains invalid fields."
    code := "VALIDATION_ERROR"
    errors := errors.map fun error => fieldError error.label }

/-! ## What a report is for -/

/-- The names from the root on. -/
def names (v : Visit (ErrorInfo V)) : List String :=
  (v.above ++ [v.label]).map ErrorInfo.property

/-- The full dotted path. -/
def dottedPath (v : Visit (ErrorInfo V)) : String := ".".intercalate (names v)

/-- **Every node that has constraints** is reported exactly once, under its full dotted path
and with all its messages, and no node without constraints is.  A report is given with the
address of the node that it is of. -/
def ReportsEachOnce (forest : List (ValidationError V))
    (reports : List (List ℕ × String × String)) : Prop :=
  (reports.map Prod.fst).Nodup ∧
    ∀ address field message, (address, field, message) ∈ reports ↔
      ∃ v ∈ visits forest, ∃ constraints, v.label.constraints = some constraints ∧
        v.address = address ∧ dottedPath v = field ∧ joinedMessages constraints = message

/-- The reports of `formatValidationErrors`, with the nodes that they are of. -/
def formatted (forest : List (ValidationError V)) : List (List ℕ × FormattedError) :=
  (visits forest).flatMap fun v =>
    (ownReport ((v.above.map ErrorInfo.property).foldl fieldPath "") v.label).map
      (Prod.mk v.address)

/-- The entries of the exception, with the roots that they are of. -/
def fieldErrors (forest : List (ValidationError V)) : List (List ℕ × FieldError V) :=
  forest.zipIdx.map fun p => ([p.2], fieldError p.1.label)

/-- Both reports are complete and faithful. -/
def BothReport (forest : List (ValidationError V)) : Prop :=
  ReportsEachOnce forest ((formatted forest).map fun r => (r.1, r.2.field, r.2.message)) ∧
    ReportsEachOnce forest ((fieldErrors forest).map fun r => (r.1, r.2.field, r.2.message))

/-! ## The recursion -/

mutual

theorem formatValidationError_eq (parentPath : String) : ∀ t : ValidationError V,
    formatValidationError parentPath t =
      walkTree ownReport (fun path e => fieldPath path e.property) parentPath t
  | .node e children => by
    rw [formatValidationError, walkTree, ← formatValidationErrors_eq _ children]
    cases children with
    | nil => rfl
    | cons t ts => rw [if_pos (by simp)]

/-- **The recursion** is a walk that passes the path down. -/
theorem formatValidationErrors_eq (parentPath : String) : ∀ ts : List (ValidationError V),
    formatValidationErrors parentPath ts =
      walk ownReport (fun path e => fieldPath path e.property) parentPath ts
  | [] => rfl
  | t :: ts => by
    rw [formatValidationErrors, walk, formatValidationError_eq parentPath t,
      formatValidationErrors_eq parentPath ts]

end

/-- The reports are those of `formatValidationErrors`. -/
theorem map_formatted (forest : List (ValidationError V)) :
    (formatted forest).map Prod.snd = formatValidationErrors "" forest := by
  rw [formatValidationErrors_eq, walk_eq, formatted, List.map_flatMap]
  refine List.flatMap_congr fun v _ => ?_
  rw [List.map_map, List.foldl_map]
  exact List.map_id _

/-- The entries are those of the exception. -/
theorem map_fieldErrors (forest : List (ValidationError V)) :
    (fieldErrors forest).map Prod.snd = (exceptionFactory forest).errors := by
  have hroots : forest.zipIdx.map Prod.fst = forest := by simp
  show _ = forest.map fun error => fieldError error.label
  conv_rhs => rw [← hroots]
  rw [fieldErrors, List.map_map, List.map_map]
  rfl

/-! ## Paths -/

theorem fieldPath_of_ne {parentPath property : String} (h : parentPath ≠ "") :
    fieldPath parentPath property = parentPath ++ "." ++ property := if_neg h

theorem intercalate_append_cons (sep a b : String) (l : List String) :
    sep.intercalate ((a ++ b) :: l) = a ++ sep.intercalate (b :: l) := by
  cases l with
  | nil => simp
  | cons c l => simp [String.intercalate_cons_cons, String.append_assoc]

/-- Below a path that is not empty, the path is the dotted one. -/
theorem foldl_fieldPath_of_ne {path : String} (h : path ≠ "") (l : List String) :
    l.foldl fieldPath path = ".".intercalate (path :: l) := by
  induction l generalizing path with
  | nil => simp
  | cons a l ih =>
    rw [List.foldl_cons, fieldPath_of_ne h, ih (by simp [String.append_eq_empty_iff]),
      intercalate_append_cons, String.intercalate_cons_cons]

/-- Empty names in front are left out of the path. -/
theorem foldl_fieldPath_empty (l : List String) :
    ("" :: l).foldl fieldPath "" = l.foldl fieldPath "" := rfl

/-- The path behind a first name. -/
theorem foldl_fieldPath_cons {a : String} (h : a ≠ "") (l : List String) :
    (a :: l).foldl fieldPath "" = ".".intercalate (a :: l) := foldl_fieldPath_of_ne h l

theorem length_foldl_fieldPath_le (l : List String) :
    (l.foldl fieldPath "").length ≤ (".".intercalate l).length := by
  induction l with
  | nil => simp
  | cons a l ih =>
    by_cases ha : a = ""
    · subst ha
      rw [foldl_fieldPath_empty]
      cases l with
      | nil => simp
      | cons b l =>
        rw [String.intercalate_cons_cons, String.length_append]
        exact ih.trans (Nat.le_add_left _ _)
    · rw [foldl_fieldPath_cons ha]

/-- **The path of the recursion** is the dotted one, unless the first of several names is
empty. -/
theorem foldl_fieldPath_eq_iff (l : List String) (a : String) :
    (l ++ [a]).foldl fieldPath "" = ".".intercalate (l ++ [a]) ↔ l.head? ≠ some "" := by
  cases l with
  | nil => simp [fieldPath]
  | cons b l =>
    by_cases hb : b = ""
    · subst hb
      refine iff_of_false (fun h => ?_) (by simp)
      have hle := length_foldl_fieldPath_le (l ++ [a])
      obtain ⟨c, rest, hrest⟩ : ∃ c rest, l ++ [a] = c :: rest := by
        cases l with
        | nil => exact ⟨a, [], rfl⟩
        | cons c l => exact ⟨c, l ++ [a], rfl⟩
      rw [List.cons_append, foldl_fieldPath_empty, hrest, String.intercalate_cons_cons] at h
      rw [hrest] at hle
      have hlength := congrArg String.length h
      rw [String.length_append, show ("" ++ ".").length = 1 from rfl] at hlength
      omega
    · refine iff_of_true ?_ (by simpa using hb)
      exact foldl_fieldPath_cons hb (l ++ [a])

/-! ## The reports -/

/-- **The recursion reports** every node with constraints, once. -/
theorem mem_formatted {forest : List (ValidationError V)} {address : List ℕ}
    {r : FormattedError} : (address, r) ∈ formatted forest ↔
      ∃ v ∈ visits forest, ∃ constraints, v.label.constraints = some constraints ∧
        v.address = address ∧ (names v).foldl fieldPath "" = r.field ∧
          joinedMessages constraints = r.message ∧ constraints.map Prod.fst = r.constraints := by
  rw [formatted, List.mem_flatMap]
  refine exists_congr fun v => and_congr_right fun _ => ?_
  rw [names, List.map_append, List.map_singleton, List.foldl_append]
  unfold ownReport
  cases hc : v.label.constraints with
  | none => simp
  | some constraints =>
    obtain ⟨field, message, keys⟩ := r
    simp [and_comm, and_left_comm]
    tauto

theorem nodup_formatted (forest : List (ValidationError V)) :
    ((formatted forest).map Prod.fst).Nodup := by
  have hsub : ((formatted forest).map Prod.fst).Sublist ((visits forest).map Visit.address) := by
    rw [formatted]
    generalize visits forest = vs
    induction vs with
    | nil => exact List.Sublist.refl _
    | cons v vs ih =>
      rw [List.flatMap_cons, List.map_append, List.map_cons]
      unfold ownReport
      cases v.label.constraints with
      | none => exact ih.cons _
      | some constraints => exact ih.cons_cons _
  exact hsub.nodup (nodup_address forest)

/-- Visits with one address are one. -/
theorem eq_of_address_eq {forest : List (ValidationError V)} {v w : Visit (ErrorInfo V)}
    (hv : v ∈ visits forest) (hw : w ∈ visits forest) (h : v.address = w.address) : v = w :=
  List.inj_on_of_nodup_map (nodup_address forest) hv hw h

/-- **`formatValidationErrors`** is complete and faithful exactly when no node with
constraints is below a root with an empty name. -/
theorem formatted_reports_iff (forest : List (ValidationError V)) :
    ReportsEachOnce forest ((formatted forest).map fun r => (r.1, r.2.field, r.2.message)) ↔
      ∀ v ∈ visits forest, v.label.constraints ≠ none →
        (v.above.map ErrorInfo.property).head? ≠ some "" := by
  have hpath : ∀ v : Visit (ErrorInfo V), (names v).foldl fieldPath "" = dottedPath v ↔
      (v.above.map ErrorInfo.property).head? ≠ some "" := by
    intro v
    rw [dottedPath, names, List.map_append, List.map_singleton]
    exact foldl_fieldPath_eq_iff _ _
  have hmem : ∀ address field message, (address, field, message) ∈
      ((formatted forest).map fun r => (r.1, r.2.field, r.2.message)) ↔
      ∃ v ∈ visits forest, ∃ constraints, v.label.constraints = some constraints ∧
        v.address = address ∧ (names v).foldl fieldPath "" = field ∧
          joinedMessages constraints = message := by
    intro address field message
    rw [List.mem_map]
    constructor
    · rintro ⟨⟨address', r⟩, hr, heq⟩
      obtain ⟨v, hv, constraints, hc, haddress, hfield, hmessage, -⟩ := mem_formatted.1 hr
      simp only [Prod.mk.injEq] at heq
      exact ⟨v, hv, constraints, hc, haddress.trans heq.1, hfield.trans heq.2.1,
        hmessage.trans heq.2.2⟩
    · rintro ⟨v, hv, constraints, hc, rfl, rfl, rfl⟩
      exact ⟨(v.address, ⟨_, _, constraints.map Prod.fst⟩),
        mem_formatted.2 ⟨v, hv, constraints, hc, rfl, rfl, rfl, rfl⟩, rfl⟩
  constructor
  · rintro ⟨-, hreports⟩ v hv hc
    obtain ⟨constraints, hc⟩ := Option.ne_none_iff_exists'.1 hc
    obtain ⟨w, hw, -, -, haddress, hfield, -⟩ := (hreports _ _ _).1
      ((hmem _ _ _).2 ⟨v, hv, constraints, hc, rfl, rfl, rfl⟩)
    obtain rfl := eq_of_address_eq hw hv haddress
    exact (hpath w).1 hfield.symm
  · intro h
    refine ⟨?_, fun address field message => ?_⟩
    · rw [List.map_map]
      exact nodup_formatted forest
    · rw [hmem]
      refine exists_congr fun v => and_congr_right fun hv => exists_congr fun constraints =>
        and_congr_right fun hc => ?_
      rw [(hpath v).2 (h v hv (by simp [hc]))]

/-- **Both reports** are complete and faithful exactly for flat errors: every root has
constraints, and nothing below a root has. -/
theorem bothReport_iff (forest : List (ValidationError V)) :
    BothReport forest ↔
      (∀ t ∈ forest, t.label.constraints ≠ none) ∧
        ∀ v ∈ visits forest, v.label.constraints ≠ none → v.above = [] := by
  rw [BothReport, formatted_reports_iff]
  have hmem : ∀ r : List ℕ × String × String,
      r ∈ ((fieldErrors forest).map fun r => (r.1, r.2.field, r.2.message)) ↔
      ∃ i t, forest[i]? = some t ∧
        ([i], t.label.property, joinedMessages (t.label.constraints.getD [])) = r := by
    intro r
    simp [fieldErrors, fieldError, List.mem_zipIdx_iff_getElem?]
    tauto
  constructor
  · rintro ⟨-, -, hreports⟩
    constructor
    · intro t ht
      obtain ⟨i, hi⟩ := List.mem_iff_getElem?.1 ht
      obtain ⟨v, hv, constraints, hc, haddress, -⟩ := (hreports _ _ _).1
        ((hmem _).2 ⟨i, t, hi, rfl⟩)
      obtain rfl := eq_of_address_eq hv (mem_visits_root hi) haddress
      rw [hc]
      simp
    · intro v hv hc
      obtain ⟨constraints, hc⟩ := Option.ne_none_iff_exists'.1 hc
      obtain ⟨i, t, hi, heq⟩ := (hmem _).1
        ((hreports _ _ _).2 ⟨v, hv, constraints, hc, rfl, rfl, rfl⟩)
      obtain rfl := eq_of_address_eq hv (mem_visits_root hi) (congrArg Prod.fst heq).symm
      rfl
  · rintro ⟨hroots, hflat⟩
    refine ⟨fun v hv hc => by simp [hflat v hv hc], ?_, fun address field message => ?_⟩
    · rw [List.map_map, fieldErrors, List.map_map]
      have hindices : (fun p : ValidationError V × ℕ => [p.2]) = (fun i : ℕ => [i]) ∘ Prod.snd := rfl
      show (forest.zipIdx.map fun p => [p.2]).Nodup
      rw [hindices, ← List.map_map, List.zipIdx_map_snd]
      exact (List.nodup_range' ..).map fun i j h => (List.cons.inj h).1
    · rw [hmem]
      constructor
      · rintro ⟨i, t, hi, heq⟩
        obtain ⟨constraints, hc⟩ := Option.ne_none_iff_exists'.1
          (hroots t (List.mem_iff_getElem?.2 ⟨i, hi⟩))
        simp only [hc, Option.getD_some, Prod.mk.injEq] at heq
        exact ⟨_, mem_visits_root hi, constraints, hc, heq.1,
          by simpa [dottedPath, names] using heq.2.1, heq.2.2⟩
      · rintro ⟨v, hv, constraints, hc, rfl, rfl, rfl⟩
        obtain ⟨i, t, hi, rfl⟩ := eq_root_of_above_nil hv (hflat v hv (by simp [hc]))
        have hc : t.label.constraints = some constraints := hc
        exact ⟨i, t, hi, by simp [hc, dottedPath, names]⟩

/-- An error of a nested property, which the factory does not report. -/
def nestedError : List (ValidationError Unit) :=
  [.node ⟨"profile", (), none⟩
    [.node ⟨"age", (), some [("isInt", "age must be an integer number")]⟩ []]]

theorem not_bothReport : ¬ ∀ forest : List (ValidationError Unit), BothReport forest := by
  intro h
  obtain ⟨v, hv, constraints, hc, haddress, -⟩ := ((h nestedError).2.2 [0] "profile" "").1 (by
    simp [fieldErrors, fieldError, nestedError, RoseTree.label, joinedMessages])
  simp only [visits, nestedError, visitsFrom, treeVisits, List.nil_append, List.append_nil,
    List.mem_cons, List.not_mem_nil, or_false] at hv
  rcases hv with rfl | rfl
  · cases hc
  · simp at haddress

/-! ## The errors of one record -/

/-- The errors of `validate` of a record without nested ones. -/
def createUserErrors (v : ValidatorJs) (dto : CreateUserDto) : List (ValidationError Unit) :=
  (CreateUserDto.properties v).filterMap fun (field, value, constraints) =>
    let broken := constraints.filter fun c => !c.holds (value dto)
    if broken.isEmpty then none
    else some (.node ⟨field, (), some (broken.map fun c => (c.name, c.message))⟩ [])

/-- The details of a refused record are the report of its errors. -/
theorem formatValidationErrors_createUser (v : ValidatorJs) (dto : CreateUserDto) :
    formatValidationErrors "" (createUserErrors v dto) = validationErrors v dto := by
  unfold createUserErrors validationErrors
  generalize CreateUserDto.properties v = properties
  induction properties with
  | nil => rfl
  | cons p properties ih =>
    obtain ⟨field, value, constraints⟩ := p
    simp only [List.filterMap_cons]
    by_cases hbroken : (constraints.filter fun c => !c.holds (value dto)).isEmpty = true
    · rw [if_pos hbroken, if_pos hbroken]
      exact ih
    · rw [if_neg hbroken, if_neg hbroken]
      simp only [formatValidationErrors, formatValidationError, ih]
      simp [ownReport, fieldPath, joinedMessages, Function.comp_def]

end EnterpriseSystem.Presentation
