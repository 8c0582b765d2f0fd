import EnterpriseSystem.Presentation.Pagination

/-!
# The response envelope

The function that `TransformInterceptor.intercept` of
`src/presentation/rest/interceptors/transform.interceptor.ts` maps over what a handler
returns, for the values that JSON has.

* `JsonValue`, `literal` — the values, and object literals.
* `Doubles` — the numbers of the language, and how a value becomes one.
* `transform` — wrapped values, pages and plain values; `transform_of_isWrapped`,
  `transform_of_isPage`, `transform_of_plain` — the three shapes.
* `decode` — what a client makes of a body; `decode_eq_iff` — which values it recovers.
* `apart` — a body without the stamp, which `decode` does not look at.
* `transform_ofHandled` — on pages of rows it is the function that counts the pages.
* `envelope` — what a response keeps of a value.
-/

namespace EnterpriseSystem.Presentation.Envelope

/-! ## Values -/

/-- A JSON value; an object is known by what its keys hold. -/
inductive JsonValue where
  | null
  | bool (b : Bool)
  | number (q : ℚ)
  | string (s : String)
  | array (items : List JsonValue)
  | object (members : String → Option JsonValue)

namespace JsonValue

/-- `value[key]`, for a key that no array has. -/
def get (key : String) : JsonValue → Option JsonValue
  | .object members => members key
  | _ => none

/-- `value && typeof value === 'object' && key in value`, for such a key. -/
def has (key : String) (value : JsonValue) : Bool := (value.get key).isSome

end JsonValue

/-- An object literal with no key twice; what is undefined is not sent. -/
def literal (fields : List (String × Option JsonValue)) : JsonValue :=
  .object fun key => (fields.lookup key).join

@[simp] theorem get_literal_nil (key : String) : (literal []).get key = none := rfl

@[simp] theorem get_literal_cons (name : String) (value : Option JsonValue)
    (fields : List (String × Option JsonValue)) (key : String) :
    (literal ((name, value) :: fields)).get key =
      if key = name then value else (literal fields).get key := by
  by_cases h : key = name
  · simp [literal, JsonValue.get, List.lookup_cons, h]
  · have hne : (key == name) = false := beq_false_of_ne h
    simp [literal, JsonValue.get, List.lookup_cons, h, hne]

/-- The numbers of the language. -/
structure Doubles where
  Double : Type
  one : Double
  div : Double → Double → Double
  ceil : Double → Double
  lt : Double → Double → Bool
  /-- `ToNumber`, which throws for an object that hides `toString`. -/
  toNumber : Option JsonValue → Except String Double
  /-- What is sent of a number; that is `null` unless it is finite. -/
  toJson : Double → JsonValue

/-- Two objects with the same fields are the same. -/
theorem literal_eq_object {fields : List (String × Option JsonValue)}
    {members : String → Option JsonValue} (h : ∀ key, (literal fields).get key = members key) :
    literal fields = .object members :=
  congrArg JsonValue.object (funext h)

/-! ## The interceptor -/

/-- `requestId` and `timestamp`. -/
structure Stamp where
  requestId : Option String
  timestamp : String

/-- `meta`. -/
def Stamp.fields (stamp : Stamp) : List (String × Option JsonValue) :=
  [("requestId", stamp.requestId.map .string), ("timestamp", some (.string stamp.timestamp))]

/-- The value is an envelope already. -/
def IsWrapped (data : JsonValue) : Prop := data.has "data" ∧ data.has "meta"

instance (data : JsonValue) : Decidable (IsWrapped data) :=
  inferInstanceAs (Decidable (_ ∧ _))

/-- The value is taken for a page. -/
def IsPage (data : JsonValue) : Prop := data.has "items" ∧ data.has "total"

instance (data : JsonValue) : Decidable (IsPage data) :=
  inferInstanceAs (Decidable (_ ∧ _))

section

variable (js : Doubles) (stamp : Stamp)

/-- What is added to the `meta` of a page. -/
def pageMeta (data : JsonValue) (total limit page : js.Double) : List (String × Option JsonValue) :=
  let totalPages := js.ceil (js.div total limit)
  [("total", data.get "total"),
    ("page", data.get "page"),
    ("limit", data.get "limit"),
    ("totalPages", some (js.toJson totalPages)),
    ("hasNext", some (.bool (js.lt page totalPages))),
    ("hasPrev", some (.bool (js.lt js.one page)))]

/-- What becomes of what the handler returns; a buffer or a stream is no JSON value. -/
def transform (data : JsonValue) : Except String JsonValue :=
  if IsWrapped data then .ok data
  else if IsPage data then do
    let total ← js.toNumber (data.get "total")
    let limit ← js.toNumber (data.get "limit")
    let page ← js.toNumber (data.get "page")
    return literal [("data", data.get "items"),
      ("meta", some (literal (stamp.fields ++ pageMeta js data total limit page)))]
  else .ok (literal [("data", some data), ("meta", some (literal stamp.fields))])

end

section

variable {js : Doubles} {stamp : Stamp} {data body : JsonValue}

theorem transform_of_isWrapped (h : IsWrapped data) : transform js stamp data = .ok data := if_pos h

/-- **A plain value** is the `data` of the body. -/
theorem transform_of_plain (hwrapped : ¬ IsWrapped data) (hpage : ¬ IsPage data) :
    transform js stamp data =
      .ok (literal [("data", some data), ("meta", some (literal stamp.fields))]) := by
  rw [transform, if_neg hwrapped, if_neg hpage]

/-- **A page** is taken apart, unless one of its numbers cannot be made of what stands there. -/
theorem transform_of_isPage (hwrapped : ¬ IsWrapped data) (hpage : IsPage data) :
    transform js stamp data = .ok body ↔
      ∃ total limit page, js.toNumber (data.get "total") = .ok total ∧
        js.toNumber (data.get "limit") = .ok limit ∧ js.toNumber (data.get "page") = .ok page ∧
        body = literal [("data", data.get "items"),
          ("meta", some (literal (stamp.fields ++ pageMeta js data total limit page)))] := by
  rw [transform, if_neg hwrapped, if_pos hpage]
  cases js.toNumber (data.get "total") with
  | error e => simp [bind, Except.bind]
  | ok total =>
    cases js.toNumber (data.get "limit") with
    | error e => simp [bind, Except.bind]
    | ok limit =>
      cases js.toNumber (data.get "page") with
      | error e => simp [bind, Except.bind]
      | ok page => simp [bind, Except.bind, pure, Except.pure, eq_comm]

end

/-! ## What a client recovers -/

/-- The fields of a page. -/
def pageFields : List String := ["items", "total", "page", "limit"]

/-- The value of a body: a page if `meta` has a total, and otherwise `data`. -/
def decode (body : JsonValue) : JsonValue :=
  let info := (body.get "meta").getD .null
  if info.has "total" then
    literal [("items", body.get "data"), ("total", info.get "total"), ("page", info.get "page"),
      ("limit", info.get "limit")]
  else (body.get "data").getD .null

/-- The page has no other fields. -/
def OnlyPageFields (data : JsonValue) : Prop := ∀ key, data.has key = true → key ∈ pageFields

section

variable {js : Doubles} {stamp : Stamp} {data body : JsonValue}

theorem decode_of_plain (hwrapped : ¬ IsWrapped data) (hpage : ¬ IsPage data)
    (h : transform js stamp data = .ok body) : decode body = data := by
  rw [transform_of_plain hwrapped hpage] at h
  obtain rfl := Except.ok.inj h
  simp [decode, JsonValue.has, Stamp.fields]

/-- **Of a page** the four fields are recovered. -/
theorem decode_of_isPage (hwrapped : ¬ IsWrapped data) (hpage : IsPage data)
    (h : transform js stamp data = .ok body) :
    decode body = .object fun key => if key ∈ pageFields then data.get key else none := by
  obtain ⟨total, limit, page, -, -, -, rfl⟩ := (transform_of_isPage hwrapped hpage).1 h
  have htotal : (data.get "total").isSome = true := hpage.2
  have hdecode : decode (literal [("data", data.get "items"),
      ("meta", some (literal (stamp.fields ++ pageMeta js data total limit page)))]) =
      literal [("items", data.get "items"), ("total", data.get "total"), ("page", data.get "page"),
        ("limit", data.get "limit")] := by
    simp [decode, JsonValue.has, Stamp.fields, pageMeta, htotal]
  rw [hdecode]
  refine literal_eq_object fun key => ?_
  simp only [get_literal_cons, get_literal_nil, pageFields, List.mem_cons, List.not_mem_nil, or_false]
  split_ifs <;> simp_all

/-- **A value that is not wrapped** is recovered unless it is taken for a page and has other
fields. -/
theorem decode_eq_iff (hwrapped : ¬ IsWrapped data) (h : transform js stamp data = .ok body) :
    decode body = data ↔ (IsPage data → OnlyPageFields data) := by
  by_cases hpage : IsPage data
  · rw [decode_of_isPage hwrapped hpage h]
    cases data with
    | object members =>
      simp only [hpage, true_imp_iff, JsonValue.object.injEq, funext_iff, OnlyPageFields,
        JsonValue.has, JsonValue.get]
      refine forall_congr' fun key => ?_
      by_cases hkey : key ∈ pageFields
      · simp [hkey]
      · cases members key <;> simp [hkey]
    | _ => exact absurd hpage.1 (by simp [JsonValue.has, JsonValue.get])
  · exact iff_of_true (decode_of_plain hwrapped hpage h) fun hpage' => absurd hpage' hpage

end

/-! ## Bodies apart from their stamps -/

/-- `meta` without `requestId` and `timestamp`. -/
def withoutStamp (info : JsonValue) : JsonValue :=
  match info with
  | .object members =>
    .object fun key => if key = "requestId" ∨ key = "timestamp" then none else members key
  | info => info

/-- The body apart from `requestId` and `timestamp`. -/
def apart (body : JsonValue) : JsonValue :=
  match body with
  | .object members =>
    .object fun key => if key = "meta" then (members "meta").map withoutStamp else members key
  | body => body

theorem get_withoutStamp {key : String} (hrequest : key ≠ "requestId")
    (htime : key ≠ "timestamp") (info : JsonValue) : (withoutStamp info).get key = info.get key := by
  cases info <;> simp [withoutStamp, JsonValue.get, hrequest, htime]

/-- **The client** does not look at the stamp. -/
theorem decode_apart (body : JsonValue) : decode (apart body) = decode body := by
  cases body with
  | object members =>
    have hdata : (apart (.object members)).get "data" = members "data" := rfl
    have hmeta : (apart (.object members)).get "meta" = (members "meta").map withoutStamp := rfl
    have hget : ∀ key, key ≠ "requestId" → key ≠ "timestamp" →
        (((members "meta").map withoutStamp).getD .null).get key =
          ((members "meta").getD .null).get key := by
      intro key hrequest htime
      cases members "meta" with
      | none => rfl
      | some info => exact get_withoutStamp hrequest htime info
    simp only [decode, JsonValue.has, hdata, hmeta, hget "total" (by decide) (by decide),
      hget "page" (by decide) (by decide), hget "limit" (by decide) (by decide)]
    rfl
  | _ => rfl

/-! ## Pages of rows -/

/-- Exact arithmetic on numbers, where everything else is not a number. -/
def rationals : Doubles where
  Double := Option ℚ
  one := some 1
  div a b := do
    let a ← a
    let b ← b
    if b = 0 then none else some (a / b)
  ceil := Option.map fun q => ⌈q⌉
  lt a b := (a.bind fun a => b.map fun b => decide (a < b)).getD false
  toNumber
    | some (.number q) => .ok (some q)
    | _ => .ok none
  toJson q := q.elim .null .number

section

variable {T : Type} (toJson : T → JsonValue) (toText : Calendar.Millis → String)

/-- The JSON of `ResponseMeta`. -/
def ofMeta (info : ResponseMeta) : JsonValue :=
  literal (Stamp.fields ⟨info.requestId, toText info.timestamp⟩ ++
    match info.pagination with
    | some p =>
      [("total", some (.number p.total)), ("page", some (.number p.page)),
        ("limit", some (.number p.limit)), ("totalPages", some (.number p.totalPages)),
        ("hasNext", some (.bool p.hasNext)), ("hasPrev", some (.bool p.hasPrev))]
    | none => [])

/-- The JSON of a body, unless it is binary. -/
def ofBody : Body T → Option JsonValue
  | .one data info =>
    some (literal [("data", some (toJson data)), ("meta", some (ofMeta toText info))])
  | .many data info =>
    some (literal [("data", some (.array (data.map toJson))), ("meta", some (ofMeta toText info))])
  | .binary => none

/-- The JSON of what a handler returns. -/
def ofHandled : Handled T → Option JsonValue
  | .wrapped data info =>
    some (literal [("data", some (toJson data)), ("meta", some (ofMeta toText info))])
  | .binary => none
  | .paginated p =>
    some (literal [("items", some (.array (p.items.map toJson))), ("total", some (.number p.total)),
      ("page", some (.number p.page)), ("limit", some (.number p.limit)),
      ("totalPages", some (.number p.totalPages))])
  | .plain data => some (toJson data)

/-- **On values that are told apart already**, the function is the one that counts pages. -/
theorem transform_ofHandled {requestId : Option String} {now : Calendar.Millis} {handled : Handled T}
    {data : JsonValue} (hdata : ofHandled toJson toText handled = some data)
    (hplain : ∀ d, handled = .plain d → ¬ IsWrapped data ∧ ¬ IsPage data)
    (hlimit : ∀ p, handled = .paginated p → p.limit ≠ 0) :
    (transform rationals ⟨requestId, toText now⟩ data).toOption =
      ofBody toJson toText (Presentation.transform requestId now handled) := by
  cases handled with
  | wrapped d info =>
    obtain rfl := Option.some.inj hdata
    rw [transform_of_isWrapped (by simp [IsWrapped, JsonValue.has])]
    rfl
  | binary => exact nomatch hdata
  | paginated p =>
    obtain rfl := Option.some.inj hdata
    have hne : (p.limit : ℚ) ≠ 0 := by exact_mod_cast hlimit p rfl
    have hceil : rationals.ceil (rationals.div (some (p.total : ℚ)) (some (p.limit : ℚ))) =
        some ((⌈(p.total : ℚ) / p.limit⌉ : ℤ) : ℚ) := by
      simp [rationals, hne]
    have hone : (1 : ℚ) < p.page ↔ 1 < p.page := by exact_mod_cast Iff.rfl
    rw [(@transform_of_isPage rationals _ _ _ (by simp [IsWrapped, JsonValue.has])
      (by simp [IsPage, JsonValue.has])).2
      ⟨some (p.total : ℚ), some (p.limit : ℚ), some (p.page : ℚ), rfl, rfl, rfl, rfl⟩]
    simp only [pageMeta, hceil]
    simp [ofBody, ofMeta, Presentation.transform, Stamp.fields, rationals, Except.toOption, hone]
  | plain d =>
    obtain rfl := Option.some.inj hdata
    rw [transform_of_plain (hplain d rfl).1 (hplain d rfl).2]
    rfl

end

/-! ## What a response keeps -/

/-- The value is no envelope, and no page with other fields. -/
structure Recoverable (data : JsonValue) : Prop where
  notWrapped : ¬ IsWrapped data
  onlyPageFields : IsPage data → OnlyPageFields data

/-- **The envelope** passes envelopes on as they are, puts a plain value under `data`, and of
a page the items under `data` and the rest in `meta`.  A client recovers every value that is
no envelope and no page with other fields, and their bodies tell them apart. -/
structure EnvelopeLaws (js : Doubles) : Prop where
  wrapped : ∀ data stamp, IsWrapped data → transform js stamp data = .ok data
  plain : ∀ data stamp, ¬ IsWrapped data → ¬ IsPage data →
    ∃ body, transform js stamp data = .ok body ∧ body.get "data" = some data
  page : ∀ data stamp body, ¬ IsWrapped data → IsPage data → transform js stamp data = .ok body →
    body.get "data" = data.get "items" ∧ ∃ info, body.get "meta" = some info ∧
      ∀ key ∈ ["total", "page", "limit"], info.get key = data.get key
  pageReturns : ∀ data stamp, ¬ IsWrapped data → IsPage data →
    (∀ key ∈ ["total", "page", "limit"], ∃ n, js.toNumber (data.get key) = .ok n) →
    ∃ body, transform js stamp data = .ok body
  recovered : ∃ decode : JsonValue → JsonValue, ∀ data stamp body, Recoverable data →
    transform js stamp data = .ok body → decode body = data
  apart : ∀ data data' stamp stamp' body body', Recoverable data → Recoverable data' →
    transform js stamp data = .ok body → transform js stamp' data' = .ok body' →
    apart body = apart body' → data = data'

/-- **The envelope loses nothing** of values that are no envelopes and no pages with other
fields. -/
theorem envelope (js : Doubles) : EnvelopeLaws js where
  wrapped _ _ := transform_of_isWrapped
  plain data stamp hwrapped hpage := ⟨_, transform_of_plain hwrapped hpage, by simp⟩
  page data stamp body hwrapped hpage h := by
    obtain ⟨total, limit, page, -, -, -, rfl⟩ := (transform_of_isPage hwrapped hpage).1 h
    refine ⟨by simp, _, by simp; rfl, ?_⟩
    simp [Stamp.fields, pageMeta]
  pageReturns data stamp hwrapped hpage h := by
    obtain ⟨total, htotal⟩ := h "total" (by simp)
    obtain ⟨limit, hlimit⟩ := h "limit" (by simp)
    obtain ⟨page, hpage'⟩ := h "page" (by simp)
    exact ⟨_, (transform_of_isPage hwrapped hpage).2
      ⟨total, limit, page, htotal, hlimit, hpage', rfl⟩⟩
  recovered := ⟨decode, fun data stamp body hdata h =>
    (decode_eq_iff hdata.notWrapped h).2 hdata.onlyPageFields⟩
  apart data data' stamp stamp' body body' hdata hdata' h h' heq := by
    have hsame : decode body = decode body' := by rw [← decode_apart, heq, decode_apart]
    rwa [(decode_eq_iff hdata.notWrapped h).2 hdata.onlyPageFields,
      (decode_eq_iff hdata'.notWrapped h').2 hdata'.onlyPageFields] at hsame

def sampleStamp : Stamp := ⟨some "abc", "2024-01-01T00:00:00.000Z"⟩

/-- An envelope that a handler returns is the body of what is in it; and among the values that
are no envelopes, an order is sent like the page of what was ordered. -/
theorem not_recovered :
    (¬ ∃ decode : JsonValue → JsonValue, ∀ data stamp body,
      transform rationals stamp data = .ok body → decode body = data) ∧
    ¬ ∃ decode : JsonValue → JsonValue, ∀ data stamp body, ¬ IsWrapped data →
      transform rationals stamp data = .ok body → decode body = data := by
  constructor
  · rintro ⟨decode, h⟩
    have hplain := h (.number 5) sampleStamp _ (transform_of_plain (by decide) (by decide))
    have hwrapped := h (literal [("data", some (.number 5)),
      ("meta", some (literal sampleStamp.fields))]) sampleStamp _
      (transform_of_isWrapped (by simp [IsWrapped, JsonValue.has]))
    exact nomatch hplain.symm.trans hwrapped
  · rintro ⟨decode, h⟩
    have hpage := h (literal [("items", some (.array [])), ("total", some (.number 0))])
      sampleStamp _ (by decide) ((transform_of_isPage (by decide) (by decide)).2
        ⟨some 0, none, none, rfl, rfl, rfl, rfl⟩)
    have horder := h (literal [("items", some (.array [])), ("total", some (.number 0)),
      ("id", some (.string "o1"))]) sampleStamp _
      (by decide) ((transform_of_isPage (by decide) (by decide)).2
        ⟨some 0, none, none, rfl, rfl, rfl, rfl⟩)
    have hid := congrArg (JsonValue.get "id") (hpage.symm.trans horder)
    exact nomatch hid

end EnterpriseSystem.Presentation.Envelope
