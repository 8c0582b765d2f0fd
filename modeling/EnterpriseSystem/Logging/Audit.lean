import EnterpriseSystem.Base.Calendar
import EnterpriseSystem.Logging.Redaction

/-!
# The audit trail

`@Audit()` of `src/application/decorators/audit.decorator.ts`: a method that is wrapped
emits one entry, whether it returns or throws.

* `sanitizePayload`, `sanitizeResult`, `audited` — the functions of the module.
* `Hides` — no member of a sensitive name has another value than `'[REDACTED]'`.
* `hides_sanitizePayload_iff` — the names are hidden at the root, and only there.
* `trailHides_iff` — when the entry of a call carries no secret.
-/

namespace EnterpriseSystem.Logging

open Unicode Nesting Calendar

/-! ## Entries -/

/-- `AuditMetadata`. -/
structure AuditMetadata where
  action : JsString
  resource : JsString
  includePayload : Option Bool
  includeResult : Option Bool

/-- `RequestContext`. -/
structure RequestContext where
  userId : Option JsString
  ipAddress : Option JsString
  userAgent : Option JsString
  correlationId : Option JsString

/-- What a method returns: a JSON value, or a `Result`, which has a value or the message of
its error. -/
inductive Returned where
  | json (v : Json)
  | result (r : Except (Option JsString) (Option Json))

/-- What a method throws: an `Error` with its message, or something else. -/
inductive Thrown where
  | error (message : JsString)
  | other

/-- `AuditEntry`, as it is emitted. -/
structure AuditEntry where
  action : JsString
  resource : JsString
  userId : Option JsString
  ipAddress : Option JsString
  userAgent : Option JsString
  correlationId : Option JsString
  timestamp : Millis
  duration : Millis
  success : Bool
  error : Option JsString
  payload : Option Json
  result : Option Json

/-! ## Sanitizing -/

/-- `sensitiveFields`. -/
def sensitiveFields : List JsString :=
  ["password", "passwordHash", "token", "refreshToken", "accessToken", "secret", "apiKey"].map text

/-- The key is one of them. -/
def isSecret (key : JsString) : Bool := sensitiveFields.contains key

/-- `{ ...payload }`: an array becomes an object whose keys are the indices. -/
def spread : Json → List (JsString × Json)
  | .leaf _ => []
  | .array items => items.zipIdx.map fun p => (LoggingInterceptor.indexKey p.2, p.1)
  | .object members => members

/-- `sanitizePayload`. -/
def sanitizePayload : Json → Json
  | .leaf a => .leaf a
  | payload => .object ((spread payload).map fun m =>
      (m.1, if isSecret m.1 then .leaf redacted else m.2))

/-- `allowed`. -/
def allowed : List JsString := ["id", "email", "status", "fullName", "userId", "roleId"].map text

/-- The member of an object. -/
def member (key : JsString) : Json → Option Json
  | .object members => members.lookup key
  | _ => none

/-- `sanitizeValue`. -/
def sanitizeValue : Json → Json
  | .leaf a => .leaf a
  | value =>
    let pick := allowed.filterMap fun key => (member key value).map fun v => (key, v)
    if pick.length > 0 then .object pick else .leaf (.string (text "[omitted]"))

/-- Whether a JSON value counts as true. -/
def truthy : Json → Bool
  | .leaf .null => false
  | .leaf (.bool b) => b
  | .leaf (.number n) => n ≠ 0
  | .leaf (.string s) => s ≠ []
  | _ => true

def isNull : Json → Bool
  | .leaf .null => true
  | _ => false

/-- A member that is neither absent nor `null`. -/
def present (key : JsString) (v : Json) : Option Json :=
  (member key v).filter fun w => !isNull w

/-- A JSON object without its absent members. -/
def objectOf (members : List (String × Option Json)) : Json :=
  .object (members.filterMap fun m => m.2.map fun v => (text m.1, v))

/-- `sanitizeResult`.  A JSON value has no methods, so that calling a member of it throws the
`TypeError`. -/
def sanitizeResult : Returned → Except Thrown (Option Json)
  | .json v =>
    match member (text "isSuccess") v with
    | none => .ok (some (sanitizeValue v))
    | some isSuccess =>
      let failed := (member (text "isFailure") v).any truthy
      if truthy isSuccess ∧ present (text "getValue") v ≠ none then
        .error (.error (text "obj.getValue is not a function"))
      else if failed ∧ present (text "getError") v ≠ none then
        .error (.error (text "obj.getError is not a function"))
      else .ok (some (objectOf [("isSuccess", some isSuccess),
        ("value", if truthy isSuccess then (member (text "value") v).map sanitizeValue else none),
        ("error", if failed then member (text "error") v else none)]))
  | .result (.ok value) => .ok (some (objectOf [("isSuccess", some (.leaf (.bool true))),
      ("value", (value.filter fun v => !isNull v).map sanitizeValue)]))
  | .result (.error message) => .ok (some (objectOf [("isSuccess", some (.leaf (.bool false))),
      ("error", message.map fun m => .leaf (.string m))]))

/-! ## The wrapper -/

/-- The readings of the clock in a call: at its start, for the time of the entry, behind the
method, and where an error is caught. -/
structure AuditClock where
  started : Millis
  timestamp : Millis
  finished : Millis
  caught : Millis

/-- A call of a method under `@Audit(metadata)`: the entry that is emitted, and what the call
returns or throws. -/
def audited (metadata : AuditMetadata) (clock : AuditClock) (input : Json)
    (context : Option RequestContext) (outcome : Except Thrown Returned) :
    AuditEntry × Except Thrown Returned :=
  let entry : AuditEntry :=
    { action := metadata.action
      resource := metadata.resource
      userId := context.bind (·.userId)
      ipAddress := context.bind (·.ipAddress)
      userAgent := context.bind (·.userAgent)
      correlationId := context.bind (·.correlationId)
      timestamp := clock.timestamp
      duration := clock.finished - clock.started
      success := true
      error := none
      payload := if metadata.includePayload = some true then some (sanitizePayload input) else none
      result := none }
  let failed (e : Thrown) : AuditEntry × Except Thrown Returned :=
    ({ entry with
        duration := clock.caught - clock.started
        success := false
        error := match e with
          | .error message => some message
          | .other => some (text "Unknown error") }, .error e)
  match outcome with
  | .error e => failed e
  | .ok result =>
    if metadata.includeResult = some true then
      match sanitizeResult result with
      | .ok sanitized => ({ entry with result := sanitized }, .ok result)
      | .error e => failed e
    else (entry, .ok result)

/-! ## Secrets -/

/-- No member of a sensitive name, at any depth, has another value than `'[REDACTED]'`. -/
def Hides (v : Json) : Prop :=
  Everywhere (fun c => c.1.any isSecret = true → c.2 = .leaf redacted) v

/-- The entry of the call carries no secret. -/
def TrailHides (metadata : AuditMetadata) (clock : AuditClock) (input : Json)
    (context : Option RequestContext) (outcome : Except Thrown Returned) : Prop :=
  ∀ payload ∈ (audited metadata clock input context outcome).1.payload, Hides payload

/-- Every name has a letter, and so no index is one of them. -/
theorem isSecret_indexKey (i : ℕ) : isSecret (LoggingInterceptor.indexKey i) = false := by
  have hletter : ∀ field ∈ sensitiveFields, ∃ u ∈ field, 57 < u.toNat := by decide +kernel
  exact Bool.eq_false_iff.2 fun hmem =>
    LoggingInterceptor.indexKey_not_mem hletter i (List.contains_iff_mem.1 hmem)

/-- **The names are hidden at the root**: no secret is left exactly when there is none further
down. -/
theorem hides_sanitizePayload_iff (input : Json) :
    Hides (sanitizePayload input) ↔
      ∀ c ∈ input.children, c.1.any isSecret = false → Hides c.2 := by
  cases input with
  | leaf a => simp [sanitizePayload, Hides, Nested.children]
  | array items =>
    simp only [sanitizePayload, spread, Hides, everywhere_object, Nested.children,
      List.forall_mem_map, isSecret_indexKey, Option.any_some, Option.any_none]
    simp only [Bool.false_eq_true, if_false, false_imp_iff, true_and, forall_true_left]
    constructor
    · intro h t ht
      obtain ⟨i, hi⟩ := List.getElem?_of_mem ht
      exact h (t, i) (List.mem_zipIdx_iff_getElem?.2 hi)
    · exact fun h p hp => h p.1 (List.fst_mem_of_mem_zipIdx hp)
  | object members =>
    simp only [sanitizePayload, spread, Hides, everywhere_object, Nested.children,
      List.forall_mem_map, Option.any_some]
    refine forall₂_congr fun m _ => ?_
    cases hsecret : isSecret m.1 with
    | true => simp
    | false => simp

/-- The payload of the entry does not depend on how the method ends. -/
theorem payload_audited (metadata : AuditMetadata) (clock : AuditClock) (input : Json)
    (context : Option RequestContext) (outcome : Except Thrown Returned) :
    (audited metadata clock input context outcome).1.payload =
      if metadata.includePayload = some true then some (sanitizePayload input) else none := by
  unfold audited
  cases outcome with
  | error e => rfl
  | ok result =>
    simp only
    split
    · split <;> rfl
    · rfl

/-- **The audit trail hides the secrets** exactly when the payload is not included, or no
sensitive name occurs below the root of the argument, outside of the values that are
hidden, with another value than `'[REDACTED]'`. -/
theorem trailHides_iff (metadata : AuditMetadata) (clock : AuditClock) (input : Json)
    (context : Option RequestContext) (outcome : Except Thrown Returned) :
    TrailHides metadata clock input context outcome ↔
      metadata.includePayload ≠ some true ∨
        ∀ c ∈ input.children, c.1.any isSecret = false → Hides c.2 := by
  rw [TrailHides, payload_audited, ← hides_sanitizePayload_iff]
  by_cases hinclude : metadata.includePayload = some true
  · simp [hinclude]
  · simp [hinclude]

/-- **A secret further down** is in the entry. -/
theorem not_trailHides :
    ¬ ∀ metadata clock input context outcome, TrailHides metadata clock input context outcome := by
  intro h
  let input : Json :=
    .object [(text "user", .object [(text "password", .leaf (.string (text "engine")))])]
  have hhides := h ⟨text "user.create", text "User", some true, none⟩ ⟨0, 0, 0, 0⟩ input none
    (.error .other)
  have huser : isSecret (text "user") = false := by decide +kernel
  have hpassword : isSecret (text "password") = true := by decide +kernel
  rw [TrailHides, payload_audited, if_pos rfl] at hhides
  have hbelow := (hides_sanitizePayload_iff input).1 (hhides _ rfl) _ List.mem_cons_self huser
  simp only [Hides, everywhere_object, List.mem_singleton, forall_eq, Option.any_some, hpassword,
    forall_true_left, Nested.leaf.injEq] at hbelow
  exact absurd hbelow.1 (by decide +kernel)

end EnterpriseSystem.Logging
