import EnterpriseSystem.Base.Nested
import EnterpriseSystem.Base.Unicode

/-!
# What the logs hide

`LoggerService.redact` of `src/observability/logging/logger.service.ts`, and
`LoggingInterceptor.redactObject` of
`src/presentation/rest/interceptors/logging.interceptor.ts`.

* `redactFields` — the traversal: a new object or array, entry by entry.
* `redactFields_eq` — it is the redaction of what is left without `__proto__`.
* `redact_correct` — `LoggerService.redact` hides the values of its fields and nothing
  else.
* `redactsCompletely_iff` — `redactObject`, which looks a key up in lower case, hides all
  spellings of its fields exactly when there is none of those that the list has with
  capitals.
-/

namespace EnterpriseSystem.Logging

open Unicode Nesting

/-! ## JSON values -/

/-- A text of the source. -/
def text (s : String) : JsString := ofScalars s.toList

/-- What is neither an object nor an array. -/
inductive Scalar where
  | null
  | bool (b : Bool)
  | number (n : ℚ)
  | string (s : JsString)
  deriving DecidableEq

/-- A JSON value. -/
abbrev Json : Type := Nested JsString Scalar

/-- `'[REDACTED]'`. -/
def redacted : Scalar := .string (text "[REDACTED]")

/-- An assignment to this key sets the prototype of an object, and makes no member. -/
def proto : JsString := text "__proto__"

/-- No object of the value has a member `__proto__`. -/
def NoProto (t : Json) : Prop := Everywhere (fun c => c.1 ≠ some proto) t

/-! ## `LoggerService` -/

section

variable (sensitive : JsString → Bool)

mutual

/-- The value with the entries of its objects assigned to new ones, those of the
sensitive keys as `'[REDACTED]'`. -/
def redactFields : Json → Json
  | .leaf a => .leaf a
  | .array items => .array (redactItems items)
  | .object members => .object (redactEntries members)

def redactItems : List Json → List Json
  | [] => []
  | t :: items => redactFields t :: redactItems items

def redactEntries : List (JsString × Json) → List (JsString × Json)
  | [] => []
  | (key, value) :: entries =>
    if key = proto then redactEntries entries
    else (key, if sensitive key then .leaf redacted else redactFields value) :: redactEntries entries

end

end

mutual

/-- The value without the members `__proto__`. -/
def dropProto : Json → Json
  | .leaf a => .leaf a
  | .array items => .array (dropProtoItems items)
  | .object members => .object (dropProtoEntries members)

def dropProtoItems : List Json → List Json
  | [] => []
  | t :: items => dropProto t :: dropProtoItems items

def dropProtoEntries : List (JsString × Json) → List (JsString × Json)
  | [] => []
  | (key, value) :: entries =>
    if key = proto then dropProtoEntries entries
    else (key, dropProto value) :: dropProtoEntries entries

end

namespace LoggerService

/-- `SENSITIVE_FIELDS` of `logger.service.ts`. -/
def SENSITIVE_FIELDS : List JsString :=
  ["password", "passwordHash", "password_hash", "token", "accessToken", "access_token",
    "refreshToken", "refresh_token", "secret", "apiKey", "api_key", "authorization", "creditCard",
    "credit_card", "ssn", "cvv", "pin"].map text

/-- `LoggerService.redact`. -/
def redact (obj : Json) : Json := redactFields (fun key => SENSITIVE_FIELDS.contains key) obj

end LoggerService

/-! ## `LoggingInterceptor` -/

namespace LoggingInterceptor

/-- `SENSITIVE_FIELDS` of `logging.interceptor.ts`. -/
def SENSITIVE_FIELDS : List JsString :=
  ["password", "passwordHash", "password_hash", "token", "accessToken", "access_token",
    "refreshToken", "refresh_token", "secret", "apiKey", "api_key", "authorization", "creditCard",
    "credit_card", "cvv", "ssn"].map text

/-- The key of an item among the entries of an array. -/
def indexKey (i : ℕ) : JsString := ofScalars (Nat.toDigits 10 i)

section

variable (toLowerCase : JsString → JsString)

/-- `SENSITIVE_FIELDS.has(key.toLowerCase())`. -/
def isSensitive (key : JsString) : Bool := SENSITIVE_FIELDS.contains (toLowerCase key)

mutual

/-- `LoggingInterceptor.redactObject`, for the runtime's `toLowerCase`.  The entries of an
array are gone through like those of an object, with the indices as keys. -/
def redactObject : Json → Json
  | .leaf a => .leaf a
  | .array items => .array (redactItems 0 items)
  | .object members => .object (redactEntries members)

def redactItems (i : ℕ) : List Json → List Json
  | [] => []
  | value :: items =>
    (if isSensitive toLowerCase (indexKey i) then .leaf redacted else redactObject value) ::
      redactItems (i + 1) items

def redactEntries : List (JsString × Json) → List (JsString × Json)
  | [] => []
  | (key, value) :: entries =>
    if key = proto then redactEntries entries
    else (key, if isSensitive toLowerCase key then .leaf redacted else redactObject value) ::
      redactEntries entries

end

end

end LoggingInterceptor

/-! ## The traversal -/

section

variable {sensitive : JsString → Bool}

mutual

/-- **The traversal** redacts what is left without `__proto__`. -/
theorem redactFields_eq : ∀ t : Json,
    redactFields sensitive t = (dropProto t).redact sensitive redacted
  | .leaf a => by simp [redactFields, dropProto]
  | .array items => by
    rw [redactFields, dropProto, Nesting.redact_array, redactItems_eq items]
  | .object members => by
    rw [redactFields, dropProto, Nesting.redact_object, redactEntries_eq members]

theorem redactItems_eq : ∀ items : List Json, redactItems sensitive items =
    (dropProtoItems items).map (Nested.redact sensitive redacted)
  | [] => rfl
  | t :: items => by
    rw [redactItems, dropProtoItems, List.map_cons, redactFields_eq t, redactItems_eq items]

theorem redactEntries_eq : ∀ entries : List (JsString × Json), redactEntries sensitive entries =
    (dropProtoEntries entries).map fun m =>
      (m.1, if sensitive m.1 then .leaf redacted else m.2.redact sensitive redacted)
  | [] => rfl
  | (key, value) :: entries => by
    rw [redactEntries, dropProtoEntries, redactFields_eq value, redactEntries_eq entries]
    split <;> rfl

end

end

/-! ## Without `__proto__` -/

theorem dropProto_array (items : List Json) :
    dropProto (.array items) = .array (items.map dropProto) := by
  have hitems : ∀ items : List Json, dropProtoItems items = items.map dropProto := by
    intro items
    induction items with
    | nil => rfl
    | cons t items ih => rw [dropProtoItems, ih, List.map_cons]
  rw [dropProto, hitems]

theorem dropProto_object (members : List (JsString × Json)) :
    dropProto (.object members) =
      .object ((members.filter fun m => m.1 ≠ proto).map fun m => (m.1, dropProto m.2)) := by
  have hentries : ∀ members : List (JsString × Json), dropProtoEntries members =
      (members.filter fun m => m.1 ≠ proto).map fun m => (m.1, dropProto m.2) := by
    intro members
    induction members with
    | nil => rfl
    | cons m members ih =>
      rw [dropProtoEntries, ih, List.filter_cons]
      by_cases hkey : m.1 = proto
      · simp [hkey]
      · simp [hkey]
  rw [dropProto, hentries]

@[simp] theorem noProto_leaf (a : Scalar) : NoProto (.leaf a) := everywhere_leaf a

@[simp] theorem noProto_array {items : List Json} :
    NoProto (.array items) ↔ ∀ t ∈ items, NoProto t := by
  simp [NoProto]

@[simp] theorem noProto_object {members : List (JsString × Json)} :
    NoProto (.object members) ↔ ∀ m ∈ members, m.1 ≠ proto ∧ NoProto m.2 := by
  simp [NoProto]

theorem dropProto_eq_self {t : Json} (h : NoProto t) : dropProto t = t := by
  induction t using Nested.childInduction with
  | h t ih =>
    cases t with
    | leaf a => rw [dropProto]
    | array items =>
      have hitems : items.map dropProto = items := by
        refine (List.map_congr_left fun u hu => ?_).trans (List.map_id items)
        exact ih (none, u) (List.mem_map_of_mem hu) (noProto_array.1 h u hu)
      rw [dropProto_array, hitems]
    | object members =>
      rw [noProto_object] at h
      have hkeep : members.filter (fun m => m.1 ≠ proto) = members :=
        List.filter_eq_self.2 fun m hm => decide_eq_true (h m hm).1
      have hmembers : members.map (fun m => (m.1, dropProto m.2)) = members := by
        refine (List.map_congr_left fun m hm => ?_).trans (List.map_id members)
        have hchild : (some m.1, m.2) ∈ (Nested.object members).children :=
          List.mem_map_of_mem (f := fun m : JsString × Json => (some m.1, m.2)) hm
        exact Prod.ext rfl (ih (some m.1, m.2) hchild (h m hm).2)
      rw [dropProto_object, hkeep, hmembers]

/-- Redacting makes no member `__proto__`. -/
theorem dropProto_redact {sensitive : JsString → Bool} (t : Json) :
    dropProto (t.redact sensitive redacted) = (dropProto t).redact sensitive redacted := by
  induction t using Nested.childInduction with
  | h t ih =>
    cases t with
    | leaf a => simp [dropProto]
    | array items =>
      have hitems : ∀ u ∈ items, dropProto (u.redact sensitive redacted) =
          (dropProto u).redact sensitive redacted :=
        fun u hu => ih (none, u) (List.mem_map_of_mem hu)
      simpa [dropProto_array] using hitems
    | object members =>
      have hmembers : ∀ m ∈ members, dropProto (m.2.redact sensitive redacted) =
          (dropProto m.2).redact sensitive redacted :=
        fun m hm => ih (some m.1, m.2) (List.mem_map_of_mem hm)
      rw [redact_object, dropProto_object, dropProto_object, redact_object, List.filter_map,
        List.map_map, List.map_map]
      refine congrArg Nested.object (List.map_congr_left fun m hm => ?_)
      have hmember := hmembers m (List.mem_of_mem_filter hm)
      show (m.1, dropProto (if sensitive m.1 then .leaf redacted else m.2.redact sensitive redacted)) =
        (m.1, if sensitive m.1 then .leaf redacted else (dropProto m.2).redact sensitive redacted)
      cases sensitive m.1 with
      | true => simp [dropProto]
      | false => simp [hmember]

theorem redactFields_of_noProto {sensitive : JsString → Bool} {t : Json} (h : NoProto t) :
    redactFields sensitive t = t.redact sensitive redacted := by
  rw [redactFields_eq, dropProto_eq_self h]

/-! ## The logger -/

/-- **The logger redacts correctly**: outside of the values of the sensitive fields
everything is as it was, these values are `'[REDACTED]'`, a second redaction changes
nothing, and what is below the sensitive fields makes no difference. -/
theorem redact_correct {t : Json} (ht : NoProto t) :
    IsRedaction (fun key => LoggerService.SENSITIVE_FIELDS.contains key) redacted t
        (LoggerService.redact t) ∧
      LoggerService.redact (LoggerService.redact t) = LoggerService.redact t ∧
      ∀ t', NoProto t' →
        AgreeOutside (fun key => LoggerService.SENSITIVE_FIELDS.contains key) t t' →
        LoggerService.redact t = LoggerService.redact t' := by
  have hredact : ∀ {u : Json}, NoProto u → LoggerService.redact u =
      u.redact (fun key => LoggerService.SENSITIVE_FIELDS.contains key) redacted :=
    fun hu => redactFields_of_noProto hu
  refine ⟨?_, ?_, fun t' ht' hagree => ?_⟩
  · rw [hredact ht]
    exact isRedaction_redact t
  · rw [hredact ht, LoggerService.redact, redactFields_eq, dropProto_redact, dropProto_eq_self ht,
      redact_redact]
  · rw [hredact ht, hredact ht']
    exact redact_eq_redact_iff.2 hagree

/-- A login, as it is logged. -/
def loginEntry : Json :=
  .object [(text "user", .leaf (.string (text "ada"))),
    (text "attempts", .array [.object [(text "password", .leaf (.string (text "engine")))]])]

theorem noProto_loginEntry : NoProto loginEntry := by
  have huser : text "user" ≠ proto := by decide +kernel
  have hattempts : text "attempts" ≠ proto := by decide +kernel
  have hpassword : text "password" ≠ proto := by decide +kernel
  simp [loginEntry, huser, hattempts, hpassword]

/-- The theorem at work. -/
theorem redact_correct_loginEntry :
    IsRedaction (fun key => LoggerService.SENSITIVE_FIELDS.contains key) redacted loginEntry
        (LoggerService.redact loginEntry) ∧
      LoggerService.redact (LoggerService.redact loginEntry) = LoggerService.redact loginEntry ∧
      ∀ t', NoProto t' →
        AgreeOutside (fun key => LoggerService.SENSITIVE_FIELDS.contains key) loginEntry t' →
        LoggerService.redact loginEntry = LoggerService.redact t' :=
  redact_correct noProto_loginEntry

/-! ## The interceptor -/

/-- The lower case of ASCII letters. -/
def asciiLower (s : JsString) : JsString :=
  s.map fun u => if 65 ≤ u.toNat ∧ u.toNat ≤ 90 then UInt16.ofNat (u.toNat + 32) else u

/-- What is relied on of `toLowerCase`. -/
structure LowerCasing (toLowerCase : JsString → JsString) : Prop where
  ascii : ∀ s : JsString, (∀ u ∈ s, u.toNat < 128) → toLowerCase s = asciiLower s
  twice : ∀ s, toLowerCase (toLowerCase s) = toLowerCase s

theorem lowerCasing_asciiLower : LowerCasing asciiLower where
  ascii _ _ := rfl
  twice s := by
    rw [asciiLower, asciiLower, List.map_map]
    refine List.map_congr_left fun u _ => ?_
    by_cases h : 65 ≤ u.toNat ∧ u.toNat ≤ 90
    · simp [h]
      omega
    · simp [h]

namespace LoggingInterceptor

/-- The key is one of the fields, in any letter case. -/
def spelledLike (toLowerCase : JsString → JsString) (key : JsString) : Bool :=
  SENSITIVE_FIELDS.any fun field => toLowerCase key == toLowerCase field

/-- The fields that the list has with capitals, in lower case. -/
def overlooked : List JsString :=
  ["passwordhash", "accesstoken", "refreshtoken", "apikey", "creditcard"].map text

/-- `redactObject` hides the values of all spellings of its fields, and nothing else of what
is left without `__proto__`. -/
def RedactsCompletely (toLowerCase : JsString → JsString) (t : Json) : Prop :=
  IsRedaction (spelledLike toLowerCase) redacted (dropProto t) (redactObject toLowerCase t)

section

variable {toLowerCase : JsString → JsString}

/-- The units of an index are digits. -/
theorem digit_of_mem_indexKey {i : ℕ} {u : UInt16} (hu : u ∈ indexKey i) :
    48 ≤ u.toNat ∧ u.toNat ≤ 57 := by
  obtain ⟨c, hc, hunit⟩ := List.mem_flatMap.1 hu
  have hdigit := Nat.isDigit_of_mem_toDigits (by decide) (by decide) hc
  have hrange : 48 ≤ c.toNat ∧ c.toNat ≤ 57 := by
    simpa [Char.isDigit, UInt32.le_iff_toNat_le] using hdigit
  have hsmall : c.toNat < 0x10000 := by omega
  rw [units, if_pos hsmall, List.mem_singleton] at hunit
  rw [hunit, UInt16.toNat_ofNat_of_lt' hsmall]
  exact hrange

/-- An index is none of some names, when each of them has a letter. -/
theorem indexKey_not_mem {names : List JsString} (h : ∀ name ∈ names, ∃ u ∈ name, 57 < u.toNat)
    (i : ℕ) : indexKey i ∉ names := by
  intro hmem
  obtain ⟨u, hu, hlt⟩ := h _ hmem
  have := digit_of_mem_indexKey hu
  omega

/-- The index of an item is no field. -/
theorem isSensitive_indexKey (h : LowerCasing toLowerCase) (i : ℕ) :
    isSensitive toLowerCase (indexKey i) = false := by
  have hlower : toLowerCase (indexKey i) = indexKey i := by
    rw [h.ascii _ fun u hu => by have := digit_of_mem_indexKey hu; omega, asciiLower]
    refine (List.map_congr_left fun u hu => if_neg ?_).trans (List.map_id _)
    have := digit_of_mem_indexKey hu
    omega
  have hletter : ∀ field ∈ SENSITIVE_FIELDS, ∃ u ∈ field, 57 < u.toNat := by decide +kernel
  rw [isSensitive, hlower]
  exact Bool.eq_false_iff.2 fun hmem => indexKey_not_mem hletter i (List.contains_iff_mem.1 hmem)

mutual

/-- **The interceptor's traversal** is that of the logger. -/
theorem redactObject_eq (h : LowerCasing toLowerCase) : ∀ t : Json,
    redactObject toLowerCase t = redactFields (isSensitive toLowerCase) t
  | .leaf a => by rw [redactObject, redactFields]
  | .array items => by rw [redactObject, redactFields, redactItems_eq h 0 items]
  | .object members => by rw [redactObject, redactFields, redactEntries_eq h members]

theorem redactItems_eq (h : LowerCasing toLowerCase) (i : ℕ) : ∀ items : List Json,
    redactItems toLowerCase i items = Logging.redactItems (isSensitive toLowerCase) items
  | [] => rfl
  | value :: items => by
    rw [redactItems, Logging.redactItems, isSensitive_indexKey h, redactObject_eq h value,
      redactItems_eq h (i + 1) items]
    rfl

theorem redactEntries_eq (h : LowerCasing toLowerCase) : ∀ entries : List (JsString × Json),
    redactEntries toLowerCase entries = Logging.redactEntries (isSensitive toLowerCase) entries
  | [] => rfl
  | (key, value) :: entries => by
    rw [redactEntries, Logging.redactEntries, redactObject_eq h value, redactEntries_eq h entries]

end

/-- A key that is found is a spelling of a field. -/
theorem spelledLike_of_isSensitive (h : LowerCasing toLowerCase) {key : JsString}
    (hkey : isSensitive toLowerCase key = true) : spelledLike toLowerCase key = true := by
  refine List.any_eq_true.2 ⟨toLowerCase key, List.contains_iff_mem.1 hkey, ?_⟩
  rw [h.twice, beq_self_eq_true]

/-- **The spellings that are not found** are those of the fields with capitals. -/
theorem overlooked_iff (h : LowerCasing toLowerCase) (key : JsString) :
    spelledLike toLowerCase key = true ∧ isSensitive toLowerCase key = false ↔
      toLowerCase key ∈ overlooked := by
  have hascii : ∀ field ∈ SENSITIVE_FIELDS, toLowerCase field = asciiLower field := by
    have hunits : (SENSITIVE_FIELDS.all fun field => field.all fun u => decide (u.toNat < 128)) =
        true := by decide +kernel
    simp only [List.all_eq_true, decide_eq_true_eq] at hunits
    exact fun field hfield => h.ascii field (hunits field hfield)
  have hcases : ∀ field ∈ SENSITIVE_FIELDS,
      asciiLower field ∈ SENSITIVE_FIELDS ∨ asciiLower field ∈ overlooked := by decide +kernel
  have hfields : ∀ s ∈ overlooked,
      s ∉ SENSITIVE_FIELDS ∧ ∃ field ∈ SENSITIVE_FIELDS, asciiLower field = s := by decide +kernel
  constructor
  · rintro ⟨hspelled, hmissed⟩
    obtain ⟨field, hfield, heq⟩ := List.any_eq_true.1 hspelled
    rw [eq_of_beq heq, hascii field hfield]
    refine (hcases field hfield).resolve_left fun hmem => ?_
    have hfound : isSensitive toLowerCase key = true := by
      rw [isSensitive, eq_of_beq heq, hascii field hfield]
      exact List.contains_iff_mem.2 hmem
    exact absurd hmissed (by rw [hfound]; decide)
  · intro hmem
    obtain ⟨hnot, field, hfield, heq⟩ := hfields _ hmem
    refine ⟨List.any_eq_true.2 ⟨field, hfield, ?_⟩, ?_⟩
    · rw [hascii field hfield, heq, beq_self_eq_true]
    · exact Bool.eq_false_iff.2 fun hfound => hnot (List.contains_iff_mem.1 hfound)

end

/-- **The interceptor redacts completely** exactly when no member, outside of the values that
are hidden, is spelled like one of the fields with capitals and has another value than
`'[REDACTED]'`. -/
theorem redactsCompletely_iff {toLowerCase : JsString → JsString} (h : LowerCasing toLowerCase)
    (t : Json) :
    RedactsCompletely toLowerCase t ↔
      ∀ path u k v, (dropProto t).follow (spelledLike toLowerCase) path = some u →
        (some k, v) ∈ u.children → toLowerCase k ∈ overlooked → v = .leaf redacted := by
  rw [RedactsCompletely, redactObject_eq h, redactFields_eq,
    isRedaction_redact_iff fun k => spelledLike_of_isSensitive h]
  constructor
  · intro hmisses path u k v hfollow hmem hkey
    obtain ⟨hspelled, hmissed⟩ := (overlooked_iff h k).2 hkey
    by_contra hvalue
    exact hmisses ⟨path, u, k, v, hfollow, hmem, hspelled, hmissed, hvalue⟩
  · rintro hvalues ⟨path, u, k, v, hfollow, hmem, hspelled, hmissed, hvalue⟩
    exact hvalue (hvalues path u k v hfollow hmem ((overlooked_iff h k).1 ⟨hspelled, hmissed⟩))

/-- The theorem at work on the entry of a login. -/
theorem redactsCompletely_iff_loginEntry :
    RedactsCompletely asciiLower loginEntry ↔
      ∀ path u k v, (dropProto loginEntry).follow (spelledLike asciiLower) path = some u →
        (some k, v) ∈ u.children → asciiLower k ∈ overlooked → v = .leaf redacted :=
  redactsCompletely_iff lowerCasing_asciiLower loginEntry

/-- **A field of the list itself is not hidden**: `accessToken`. -/
theorem not_redactsCompletely :
    ¬ ∀ (toLowerCase : JsString → JsString) (t : Json), LowerCasing toLowerCase →
      RedactsCompletely toLowerCase t := by
  intro h
  let t : Json := .object [(text "accessToken", .leaf (.string (text "secret")))]
  have hmasked := (h asciiLower t lowerCasing_asciiLower).masked [] (dropProto t)
    (redactObject asciiLower t) 0 (text "accessToken") (.leaf (.string (text "secret"))) rfl rfl
  have hproto : text "accessToken" ≠ proto := by decide +kernel
  have hspelled : spelledLike asciiLower (text "accessToken") = true := by decide +kernel
  have hmissed : isSensitive asciiLower (text "accessToken") = false := by decide +kernel
  have hchild : (dropProto t).children[0]? =
      some (some (text "accessToken"), .leaf (.string (text "secret"))) := by
    simp [t, dropProto, dropProtoEntries, hproto, Nested.children]
  have hresult : (redactObject asciiLower t).children[0]? =
      some (some (text "accessToken"), .leaf (.string (text "secret"))) := by
    simp [t, redactObject, redactEntries, hproto, hmissed, Nested.children]
  have heq := hresult.symm.trans (hmasked hchild hspelled)
  simp only [Option.some.injEq, Prod.mk.injEq, true_and, Nested.leaf.injEq] at heq
  exact absurd heq (by decide +kernel)

end LoggingInterceptor

end EnterpriseSystem.Logging
