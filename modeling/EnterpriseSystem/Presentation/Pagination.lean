import EnterpriseSystem.Base.Calendar
import EnterpriseSystem.Base.Paging

/-!
# Pages

The four places that count pages: `BaseRepository.findPaginated`, `buildOffsetMeta` of
`src/common/types/pagination.type.ts`, `TransformInterceptor` of the presentation layer,
and `PaginatedResult` of `src/application/dto/pagination.dto.ts`.

* `Delegate.Serves` — the table, in a fixed order.
* `findPaginated_eq` — a page is a slice, and there are `⌈total / limit⌉` of them.
* `flatten_pages`, `page_eq_nil_iff` — the pages give the list, and the later ones are
  empty.
* `lt_ceil_iff` — the comparison that the other three make.
* `pagination_agrees` — the four agree.
-/

namespace EnterpriseSystem.Presentation

open Calendar Paging

/-! ## `BaseRepository` -/

/-- What `findPaginated` calls of the client: `findMany({ skip, take })` and `count()`. -/
structure Delegate (M : Type) where
  findMany (skip take : ℤ) : Except String (List M)
  count : Except String ℕ

/-- The client serves the rows in this order. -/
structure Delegate.Serves {M : Type} (delegate : Delegate M) (rows : List M) : Prop where
  findMany : ∀ skip take : ℕ, delegate.findMany skip take = .ok ((rows.drop skip).take take)
  count : delegate.count = .ok rows.length

/-- `PaginationParams`. -/
structure PaginationParams where
  page : ℤ
  limit : ℤ

/-- What `findPaginated` returns. -/
structure PageObject (T : Type) where
  items : List T
  total : ℤ
  page : ℤ
  limit : ℤ
  totalPages : ℤ

/-- `findPaginated`. -/
def findPaginated {M T : Type} (delegate : Delegate M) (toDomain : M → T)
    (params : PaginationParams) : Except String (PageObject T) := do
  let skip := (params.page - 1) * params.limit
  let items ← delegate.findMany skip params.limit
  let total ← delegate.count
  return { items := items.map toDomain
           total := total
           page := params.page
           limit := params.limit
           totalPages := ⌈(total : ℚ) / params.limit⌉ }

/-! ## The others -/

/-- `OffsetPaginationMeta`. -/
structure OffsetPaginationMeta where
  page : ℤ
  limit : ℤ
  totalItems : ℤ
  totalPages : ℤ
  hasNext : Bool
  hasPrevious : Bool

/-- `buildOffsetMeta`. -/
def buildOffsetMeta (page limit totalItems : ℤ) : OffsetPaginationMeta :=
  let totalPages := ⌈(totalItems : ℚ) / limit⌉
  { page := page
    limit := limit
    totalItems := totalItems
    totalPages := totalPages
    hasNext := decide (page < totalPages)
    hasPrevious := decide (page > 1) }

/-- `PaginatedResult` of the application layer. -/
structure PaginatedResult (T : Type) where
  data : List T
  total : ℤ
  limit : ℤ
  offset : ℤ
  nextCursor : Option String

namespace PaginatedResult

variable {T : Type}

/-- `hasNextPage`; an empty cursor is none. -/
def hasNextPage (r : PaginatedResult T) : Bool :=
  if r.nextCursor.any (· ≠ "") then true else decide (r.offset + r.limit < r.total)

def hasPreviousPage (r : PaginatedResult T) : Bool := decide (r.offset > 0)

end PaginatedResult

/-- What the interceptor adds to a page. -/
structure PageMeta where
  total : ℤ
  page : ℤ
  limit : ℤ
  totalPages : ℤ
  hasNext : Bool
  hasPrev : Bool

/-- `ResponseMeta`, and what is added to it. -/
structure ResponseMeta where
  requestId : Option String
  timestamp : Millis
  pagination : Option PageMeta

/-- What a handler returns, as the interceptor tells it apart: an object with `data` and
`meta`, a buffer or a stream, another object with `items` and `total`, or anything else. -/
inductive Handled (T : Type) where
  | wrapped (data : T) (info : ResponseMeta)
  | binary
  | paginated (p : PageObject T)
  | plain (data : T)

/-- The body of a response. -/
inductive Body (T : Type) where
  | one (data : T) (info : ResponseMeta)
  | many (data : List T) (info : ResponseMeta)
  | binary

/-- `TransformInterceptor`: the function that `intercept` maps over what the handler
returns. -/
def transform {T : Type} (requestId : Option String) (now : Millis) : Handled T → Body T
  | .wrapped data info => .one data info
  | .binary => .binary
  | .paginated p =>
    let totalPages := ⌈(p.total : ℚ) / p.limit⌉
    .many p.items
      { requestId := requestId
        timestamp := now
        pagination := some
          { total := p.total
            page := p.page
            limit := p.limit
            totalPages := totalPages
            hasNext := decide (p.page < totalPages)
            hasPrev := decide (p.page > 1) } }
  | .plain data => .one data { requestId := requestId, timestamp := now, pagination := none }

/-- The `hasNext` of a response. -/
def Body.hasNext {T : Type} : Body T → Option Bool
  | .one _ info => info.pagination.map (·.hasNext)
  | .many _ info => info.pagination.map (·.hasNext)
  | .binary => none

/-! ## Counting -/

/-- **The comparison behind all of them**: a page is not the last one when there are rows
behind it. -/
theorem lt_ceil_iff {limit : ℤ} (hlimit : 1 ≤ limit) (page total : ℤ) :
    page < ⌈(total : ℚ) / limit⌉ ↔ page * limit < total := by
  have hpos : (0 : ℚ) < limit := by exact_mod_cast hlimit
  rw [Int.lt_ceil, lt_div_iff₀ hpos]
  exact_mod_cast Iff.rfl

section

variable {M T : Type} {delegate : Delegate M} {rows : List M} {toDomain : M → T} {limit : ℤ}

/-- The rows of a page. -/
def slice (rows : List M) (toDomain : M → T) (limit page : ℤ) : List T :=
  ((rows.drop ((page - 1) * limit).toNat).take limit.toNat).map toDomain

theorem findPaginated_eq (hserves : delegate.Serves rows) (hlimit : 1 ≤ limit) {page : ℤ}
    (hpage : 1 ≤ page) :
    findPaginated delegate toDomain ⟨page, limit⟩ =
      .ok ⟨slice rows toDomain limit page, rows.length, page, limit,
        ⌈(rows.length : ℚ) / limit⌉⟩ := by
  have hskip : (((page - 1) * limit).toNat : ℤ) = (page - 1) * limit :=
    Int.toNat_of_nonneg (mul_nonneg (by omega) (by omega))
  have htake : (limit.toNat : ℤ) = limit := Int.toNat_of_nonneg (by omega)
  have hmany := hserves.findMany ((page - 1) * limit).toNat limit.toNat
  rw [hskip, htake] at hmany
  simp [findPaginated, hmany, hserves.count, slice, bind, Except.bind, pure, Except.pure]

/-- A page is empty when there are no rows left. -/
theorem slice_eq_nil_iff (hlimit : 1 ≤ limit) {page : ℤ} (hpage : 1 ≤ page) :
    slice rows toDomain limit page = [] ↔ ¬ (page - 1) * limit < rows.length := by
  have hskip : (((page - 1) * limit).toNat : ℤ) = (page - 1) * limit :=
    Int.toNat_of_nonneg (mul_nonneg (by omega) (by omega))
  rw [slice, List.map_eq_nil_iff, ← List.length_eq_zero_iff, List.length_take, List.length_drop]
  omega

/-- There are rows left behind a page exactly when a later page is not empty. -/
theorem exists_later_iff (hlimit : 1 ≤ limit) {page : ℤ} (hpage : 1 ≤ page) :
    (∃ later > page, slice rows toDomain limit later ≠ []) ↔ page * limit < rows.length := by
  constructor
  · rintro ⟨later, hlater, hne⟩
    rw [Ne, slice_eq_nil_iff hlimit (by omega), not_not] at hne
    have hle : page * limit ≤ (later - 1) * limit :=
      mul_le_mul_of_nonneg_right (by omega) (by omega)
    omega
  · intro hlt
    refine ⟨page + 1, by omega, ?_⟩
    rwa [Ne, slice_eq_nil_iff hlimit (by omega), not_not, add_sub_cancel_right]

/-- The same, counting from `0`. -/
theorem lt_toNat_ceil_iff (hlimit : 1 ≤ limit) (k total : ℕ) :
    k < ⌈(total : ℚ) / limit⌉.toNat ↔ k * limit < total := by
  rw [Int.lt_toNat]
  exact_mod_cast lt_ceil_iff hlimit k total

/-- **The pages give the list.** -/
theorem flatten_slice (hlimit : 1 ≤ limit) :
    ((List.range ⌈(rows.length : ℚ) / limit⌉.toNat).map fun k : ℕ =>
      slice rows toDomain limit (k + 1)).flatten = rows.map toDomain := by
  have hcast : (limit.toNat : ℤ) = limit := Int.toNat_of_nonneg (by omega)
  have hslice : ∀ k : ℕ, slice rows toDomain limit (k + 1) =
      ((rows.map toDomain).drop (k * limit.toNat)).take limit.toNat := by
    intro k
    have hskip : (((k : ℤ) + 1 - 1) * limit).toNat = k * limit.toNat := by
      rw [add_sub_cancel_right, Int.toNat_mul (by omega) (by omega), Int.toNat_natCast]
    rw [slice, hskip, List.map_take, List.map_drop]
  have hall : (rows.map toDomain).length ≤ ⌈(rows.length : ℚ) / limit⌉.toNat * limit.toNat := by
    have hlast := mt (lt_toNat_ceil_iff hlimit _ rows.length).2 (lt_irrefl _)
    generalize ⌈(rows.length : ℚ) / limit⌉.toNat = pages at hlast ⊢
    have hproduct : ((pages * limit.toNat : ℕ) : ℤ) = pages * limit := by rw [Nat.cast_mul, hcast]
    rw [List.length_map]
    omega
  rw [List.map_congr_left fun k _ => hslice k, flatten_slices, List.take_of_length_le hall]

/-- What is served of a page. -/
def served (delegate : Delegate M) (toDomain : M → T) (limit page : ℤ) : Except String (List T) :=
  (findPaginated delegate toDomain ⟨page, limit⟩).map (·.items)

theorem served_eq (hserves : delegate.Serves rows) (hlimit : 1 ≤ limit) {page : ℤ}
    (hpage : 1 ≤ page) :
    served delegate toDomain limit page = .ok (slice rows toDomain limit page) := by
  rw [served, findPaginated_eq hserves hlimit hpage]
  rfl

end

/-- **The four agree.**  In a fixed order the pages up to `totalPages` give the list, and the
later ones are empty; and the three computations of whether there is a next page agree,
and say whether a later page is not empty. -/
theorem pagination_agrees {M T : Type} {delegate : Delegate M} {rows : List M}
    (hserves : delegate.Serves rows) (toDomain : M → T) {limit : ℤ} (hlimit : 1 ≤ limit) :
    ∃ totalPages : ℕ,
      (∃ pages : List (List T),
        (List.range totalPages).mapM (fun k : ℕ => served delegate toDomain limit (k + 1)) =
          .ok pages ∧ pages.flatten = rows.map toDomain) ∧
      (∀ page : ℤ, totalPages < page → served delegate toDomain limit page = .ok []) ∧
      ∀ page : ℤ, 1 ≤ page → ∃ p : PageObject T,
        findPaginated delegate toDomain ⟨page, limit⟩ = .ok p ∧ p.totalPages = totalPages ∧
        ∃ hasNext : Bool,
          (buildOffsetMeta page limit p.total).hasNext = hasNext ∧
          (∀ requestId now, (transform requestId now (.paginated p)).hasNext = some hasNext) ∧
          (PaginatedResult.mk p.items p.total limit ((page - 1) * limit) none).hasNextPage =
            hasNext ∧
          (hasNext = true ↔
            ∃ later > page, ∃ items, served delegate toDomain limit later = .ok items ∧
              items ≠ []) := by
  have hceil : (0 : ℤ) ≤ ⌈(rows.length : ℚ) / limit⌉ := by
    have hpos : (0 : ℚ) ≤ limit := by exact_mod_cast (by omega : (0 : ℤ) ≤ limit)
    exact Int.ceil_nonneg (by positivity)
  have hcast : (⌈(rows.length : ℚ) / limit⌉.toNat : ℤ) = ⌈(rows.length : ℚ) / limit⌉ :=
    Int.toNat_of_nonneg hceil
  refine ⟨⌈(rows.length : ℚ) / limit⌉.toNat, ⟨_, ?_, flatten_slice hlimit⟩, fun page hpage => ?_,
    fun page hpage => ?_⟩
  · have hserved : (fun k : ℕ => served delegate toDomain limit (k + 1)) =
        fun k : ℕ => pure (slice rows toDomain limit (k + 1)) :=
      funext fun k => served_eq hserves hlimit (by omega)
    rw [hserved, List.mapM_pure]
    rfl
  · have hone : 1 ≤ page := by omega
    have hlast : ¬ (page - 1 < ⌈(((rows.length : ℕ) : ℤ) : ℚ) / limit⌉) := by
      rw [Int.cast_natCast]
      omega
    rw [served_eq hserves hlimit hone,
      (slice_eq_nil_iff hlimit hone).2 (mt (lt_ceil_iff hlimit _ _).2 hlast)]
  · have hlt := lt_ceil_iff hlimit page rows.length
    refine ⟨_, findPaginated_eq hserves hlimit hpage, hcast.symm,
      decide (page * limit < rows.length), ?_, fun requestId now => ?_, ?_, ?_⟩
    · exact decide_eq_decide.2 hlt
    · exact congrArg some (decide_eq_decide.2 hlt)
    · have hsum : (page - 1) * limit + limit = page * limit := by ring
      simp [PaginatedResult.hasNextPage, hsum]
    · rw [decide_eq_true_eq]
      have hlater : (∃ later > page, slice rows toDomain limit later ≠ []) ↔ _ :=
        exists_later_iff hlimit hpage
      rw [← hlater]
      refine exists_congr fun later => and_congr_right fun hgt => ?_
      rw [served_eq hserves hlimit (by omega)]
      simp

/-- A client with three rows. -/
def threeRows : Delegate ℕ where
  findMany skip take := .ok (([1, 2, 3].drop skip.toNat).take take.toNat)
  count := .ok 3

/-- The theorem at work on pages of two rows. -/
theorem pagination_agrees_threeRows :
    ∃ totalPages : ℕ,
      (∃ pages : List (List ℕ),
        (List.range totalPages).mapM (fun k : ℕ => served threeRows id 2 (k + 1)) = .ok pages ∧
          pages.flatten = [1, 2, 3].map id) ∧
      (∀ page : ℤ, totalPages < page → served threeRows id 2 page = .ok []) ∧
      ∀ page : ℤ, 1 ≤ page → ∃ p : PageObject ℕ,
        findPaginated threeRows id ⟨page, 2⟩ = .ok p ∧ p.totalPages = totalPages ∧
        ∃ hasNext : Bool,
          (buildOffsetMeta page 2 p.total).hasNext = hasNext ∧
          (∀ requestId now, (transform requestId now (.paginated p)).hasNext = some hasNext) ∧
          (PaginatedResult.mk p.items p.total 2 ((page - 1) * 2) none).hasNextPage = hasNext ∧
          (hasNext = true ↔
            ∃ later > page, ∃ items, served threeRows id 2 later = .ok items ∧ items ≠ []) :=
  pagination_agrees ⟨fun _ _ => rfl, rfl⟩ id (by decide)

end EnterpriseSystem.Presentation
