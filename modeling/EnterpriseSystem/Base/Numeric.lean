import Mathlib

/-!
# Decimal numbers as a SQL database stores them

PostgreSQL's `NUMERIC` is an exact decimal type with three extra values, the
two infinities and `NaN`; a column `NUMERIC(p, s)` keeps `s` fractional digits
and `p` digits in all.  Arithmetic on `NUMERIC` is exact, and storing a value
into a column rounds it.

* `roundHalfAway` — rounding to the nearest integer, ties away from zero, with
  the two facts that decide whether rounding commutes with an integer offset:
  away from a tie it always does (`roundHalfAway_int_sub`), and at a tie exactly
  on one side of zero (`roundHalfAway_int_sub_tie`).
* `Numeric` — the unconstrained type with its order and arithmetic.
* `Fixed p s` — the values of a `NUMERIC(p, s)` column, held as a number of
  units `10 ^ (-s)` within the precision, so that no value out of range and no
  value with too many digits can be built.
* `Fixed.store` — assignment to such a column.
* `Int4` — the 32-bit integers, whose arithmetic raises an error instead of
  wrapping around.
-/

namespace Relational

/-! ## Rounding -/

/-- Round to the nearest integer, ties away from zero. -/
def roundHalfAway (q : ℚ) : ℤ := if 0 ≤ q then ⌊q + 1 / 2⌋ else -⌊-q + 1 / 2⌋

/-- A number exactly half way between two integers. -/
def IsTie (q : ℚ) : Prop := ∃ n : ℤ, q = n + 1 / 2

theorem not_isTie_intCast (n : ℤ) : ¬ IsTie n := by
  rintro ⟨m, hm⟩
  have h : ((2 * n : ℤ) : ℚ) = ((2 * m + 1 : ℤ) : ℚ) := by
    push_cast
    linarith
  have h' : 2 * n = 2 * m + 1 := by exact_mod_cast h
  omega

theorem roundHalfAway_of_nonneg {q : ℚ} (h : 0 ≤ q) : roundHalfAway q = ⌊q + 1 / 2⌋ := if_pos h

theorem roundHalfAway_of_neg {q : ℚ} (h : q < 0) : roundHalfAway q = -⌊-q + 1 / 2⌋ :=
  if_neg (not_le.2 h)

@[simp] theorem roundHalfAway_intCast (n : ℤ) : roundHalfAway n = n := by
  have hfloor : ∀ m : ℤ, ⌊(m : ℚ) + 1 / 2⌋ = m := fun m => by
    rw [Int.floor_eq_iff]
    constructor <;> linarith
  rcases le_or_gt (0 : ℚ) n with h | h
  · rw [roundHalfAway_of_nonneg h, hfloor]
  · rw [roundHalfAway_of_neg h, show (-(n : ℚ)) = ((-n : ℤ) : ℚ) by push_cast; rfl, hfloor, neg_neg]

/-- Rounding up at the half works on both sides of zero, except at a tie below
zero. -/
theorem roundHalfAway_eq_floor {q : ℚ} (h : 0 ≤ q ∨ ¬ IsTie q) :
    roundHalfAway q = ⌊q + 1 / 2⌋ := by
  rcases le_or_gt 0 q with hq | hq
  · exact roundHalfAway_of_nonneg hq
  · have hnt : ¬ IsTie q := h.resolve_left (not_le.2 hq)
    rw [roundHalfAway_of_neg hq]
    set m := ⌊q + 1 / 2⌋ with hm
    have hlow : (m : ℚ) ≤ q + 1 / 2 := Int.floor_le _
    have hhigh : q + 1 / 2 < m + 1 := Int.lt_floor_add_one _
    have hne : (m : ℚ) ≠ q + 1 / 2 := by
      intro hc
      exact hnt ⟨m - 1, by push_cast; linarith⟩
    have hlt : (m : ℚ) < q + 1 / 2 := lt_of_le_of_ne hlow hne
    have hfl : ⌊-q + 1 / 2⌋ = -m := by
      rw [Int.floor_eq_iff]
      push_cast
      constructor <;> linarith
    rw [hfl, neg_neg]

/-- Below zero a tie is rounded down. -/
theorem roundHalfAway_tie_neg {q : ℚ} (h : IsTie q) (hq : q < 0) :
    roundHalfAway q = ⌊q + 1 / 2⌋ - 1 := by
  obtain ⟨n, rfl⟩ := h
  have h₁ : ⌊(n : ℚ) + 1 / 2 + 1 / 2⌋ = n + 1 := by
    rw [Int.floor_eq_iff]
    push_cast
    constructor <;> linarith
  have h₂ : ⌊-((n : ℚ) + 1 / 2) + 1 / 2⌋ = -n := by
    rw [Int.floor_eq_iff]
    push_cast
    constructor <;> linarith
  rw [roundHalfAway_of_neg hq, h₁, h₂]
  ring

theorem roundHalfAway_nonneg {q : ℚ} (h : 0 ≤ q) : 0 ≤ roundHalfAway q := by
  rw [roundHalfAway_of_nonneg h]
  exact Int.floor_nonneg.2 (by linarith)

/-- A number that rounds to something positive is positive. -/
theorem pos_of_roundHalfAway_pos {q : ℚ} (h : 0 < roundHalfAway q) : 0 < q := by
  by_contra hq
  rcases eq_or_lt_of_le (not_lt.1 hq) with rfl | hneg
  · simp [roundHalfAway] at h
    norm_num at h
  · rw [roundHalfAway_of_neg hneg] at h
    have : 0 ≤ ⌊-q + 1 / 2⌋ := Int.floor_nonneg.2 (by linarith)
    omega

theorem isTie_int_sub {n : ℤ} {q : ℚ} : IsTie (n - q) ↔ IsTie q := by
  constructor
  · rintro ⟨m, hm⟩
    exact ⟨n - m - 1, by push_cast; linarith⟩
  · rintro ⟨m, rfl⟩
    exact ⟨n - m - 1, by push_cast; ring⟩

theorem isTie_int_add {n : ℤ} {q : ℚ} : IsTie (n + q) ↔ IsTie q := by
  constructor
  · rintro ⟨m, hm⟩
    exact ⟨m - n, by push_cast; linarith⟩
  · rintro ⟨m, rfl⟩
    exact ⟨n + m, by push_cast; ring⟩

theorem floor_int_sub_of_not_isTie {n : ℤ} {q : ℚ} (h : ¬ IsTie q) :
    ⌊(n - q : ℚ) + 1 / 2⌋ = n - ⌊q + 1 / 2⌋ := by
  set m := ⌊q + 1 / 2⌋ with hm
  have hlow : (m : ℚ) ≤ q + 1 / 2 := Int.floor_le _
  have hhigh : q + 1 / 2 < m + 1 := Int.lt_floor_add_one _
  have hne : (m : ℚ) ≠ q + 1 / 2 := fun hc => h ⟨m - 1, by push_cast; linarith⟩
  have hlt : (m : ℚ) < q + 1 / 2 := lt_of_le_of_ne hlow hne
  rw [Int.floor_eq_iff]
  push_cast
  constructor <;> linarith

/-- **Away from a tie, rounding commutes with an integer offset** (subtracting
the rounded number). -/
theorem roundHalfAway_int_sub {n : ℤ} {q : ℚ} (h : ¬ IsTie q) :
    roundHalfAway (n - q) = n - roundHalfAway q := by
  rw [roundHalfAway_eq_floor (Or.inr fun hc => h (isTie_int_sub.1 hc)),
    roundHalfAway_eq_floor (Or.inr h), floor_int_sub_of_not_isTie h]

/-- Away from a tie, rounding commutes with an integer offset (adding the
rounded number). -/
theorem roundHalfAway_int_add {n : ℤ} {q : ℚ} (h : ¬ IsTie q) :
    roundHalfAway (n + q) = n + roundHalfAway q := by
  rw [roundHalfAway_eq_floor (Or.inr fun hc => h (isTie_int_add.1 hc)),
    roundHalfAway_eq_floor (Or.inr h), add_assoc, Int.floor_intCast_add]

/-- **At a positive tie the offset comes out only below zero.**  Away from zero
the two roundings go in opposite directions. -/
theorem roundHalfAway_int_sub_tie {n : ℤ} {q : ℚ} (h : IsTie q) (hq : 0 < q) :
    roundHalfAway (n - q) = n - roundHalfAway q ↔ (n : ℚ) < q := by
  have hround : roundHalfAway q = ⌊q + 1 / 2⌋ := roundHalfAway_of_nonneg hq.le
  obtain ⟨m, rfl⟩ := h
  have h₁ : ⌊(m : ℚ) + 1 / 2 + 1 / 2⌋ = m + 1 := by
    rw [Int.floor_eq_iff]
    push_cast
    constructor <;> linarith
  have h₂ : ⌊(n : ℚ) - (m + 1 / 2) + 1 / 2⌋ = n - m := by
    rw [Int.floor_eq_iff]
    push_cast
    constructor <;> linarith
  rcases lt_or_ge (n : ℚ) (m + 1 / 2) with hlt | hge
  · rw [roundHalfAway_tie_neg (isTie_int_sub.2 ⟨m, rfl⟩) (by linarith), h₂, hround, h₁]
    simp only [hlt, iff_true]
    ring
  · rw [roundHalfAway_of_nonneg (by linarith), h₂, hround, h₁]
    simp only [not_lt.2 hge, iff_false]
    omega

/-- At a positive tie, adding the rounded number agrees only above zero. -/
theorem roundHalfAway_int_add_tie {n : ℤ} {q : ℚ} (h : IsTie q) (hq : 0 < q) :
    roundHalfAway (n + q) = n + roundHalfAway q ↔ 0 < (n : ℚ) + q := by
  have hround : roundHalfAway q = ⌊q + 1 / 2⌋ := roundHalfAway_of_nonneg hq.le
  have hsplit : ⌊(n : ℚ) + q + 1 / 2⌋ = n + ⌊q + 1 / 2⌋ := by
    rw [add_assoc, Int.floor_intCast_add]
  rcases lt_or_ge ((n : ℚ) + q) 0 with hlt | hge
  · rw [roundHalfAway_tie_neg (isTie_int_add.2 h) hlt, hsplit, hround]
    simp only [not_lt.2 hlt.le, iff_false]
    omega
  · have hne : (n : ℚ) + q ≠ 0 := by
      intro hc
      obtain ⟨m, rfl⟩ := h
      have : ((2 * (n + m) + 1 : ℤ) : ℚ) = 0 := by push_cast; linarith
      have : (2 * (n + m) + 1 : ℤ) = 0 := by exact_mod_cast this
      omega
    rw [roundHalfAway_of_nonneg hge, hsplit, hround]
    simp only [lt_of_le_of_ne hge (Ne.symm hne)]

/-! ## The unconstrained type -/

/-- A value of type `NUMERIC`. -/
inductive Numeric where
  | negInfinity
  | finite (q : ℚ)
  | infinity
  | nan
  deriving DecidableEq

namespace Numeric

/-- `<` on `NUMERIC`: `NaN` is above everything, `Infinity` included. -/
def lt : Numeric → Numeric → Bool
  | negInfinity, b => b != negInfinity
  | finite a, finite b => decide (a < b)
  | finite _, infinity => true
  | finite _, nan => true
  | infinity, nan => true
  | _, _ => false

/-- `<=` on `NUMERIC`; the order is total. -/
def le (a b : Numeric) : Bool := !lt b a

/-- `+` on `NUMERIC`. -/
def add : Numeric → Numeric → Numeric
  | finite a, finite b => finite (a + b)
  | nan, _ => nan
  | _, nan => nan
  | infinity, negInfinity => nan
  | negInfinity, infinity => nan
  | infinity, _ => infinity
  | _, infinity => infinity
  | negInfinity, _ => negInfinity
  | _, negInfinity => negInfinity

/-- Unary `-` on `NUMERIC`. -/
def neg : Numeric → Numeric
  | finite a => finite (-a)
  | nan => nan
  | infinity => negInfinity
  | negInfinity => infinity

/-- `-` on `NUMERIC`. -/
def sub (a b : Numeric) : Numeric := add a (neg b)

/-- `SUM` of a column, `0` over no rows. -/
def sum (l : List Numeric) : Numeric := l.foldr add (finite 0)

@[simp] theorem lt_finite (a b : ℚ) : lt (finite a) (finite b) = decide (a < b) := rfl

@[simp] theorem le_finite (a b : ℚ) : le (finite a) (finite b) = decide (a ≤ b) := by
  simp only [le, lt_finite, ← decide_not, not_lt]

@[simp] theorem add_finite (a b : ℚ) : add (finite a) (finite b) = finite (a + b) := rfl

@[simp] theorem sub_finite (a b : ℚ) : sub (finite a) (finite b) = finite (a - b) := by
  simp [sub, neg, sub_eq_add_neg]

@[simp] theorem add_zero (a : Numeric) : add a (finite 0) = a := by
  cases a <;> simp [add]

@[simp] theorem sum_nil : sum [] = finite 0 := rfl

@[simp] theorem sum_cons (a : Numeric) (l : List Numeric) : sum (a :: l) = add a (sum l) := rfl

/-- What is left of an amount that covers `x`. -/
theorem sub_not_neg {a x : Numeric} (h : lt a x = false) : lt (sub a x) (finite 0) = false := by
  cases a <;> cases x <;> simp_all [lt, sub, neg, add]

theorem add_not_neg {a x : Numeric} (ha : lt a (finite 0) = false) (hx : lt x (finite 0) = false) :
    lt (add a x) (finite 0) = false := by
  cases a <;> cases x <;> simp_all [lt, add]
  linarith

theorem sum_map_finite {α : Type} (f : α → ℚ) (l : List α) :
    sum (l.map fun a => finite (f a)) = finite (l.map f).sum := by
  induction l with
  | nil => rfl
  | cons a l ih => simp [ih]

end Numeric

/-! ## A column of given precision and scale -/

/-- A value of a `NUMERIC(p, s)` column: `NaN`, or a number of units
`10 ^ (-s)` of at most `p` digits. -/
inductive Fixed (p s : ℕ) where
  | nan
  | units (n : ℤ) (h : n.natAbs < 10 ^ p)
  deriving DecidableEq

namespace Fixed

variable {p s : ℕ}

/-- The stored value read back as a `NUMERIC`. -/
def toNumeric : Fixed p s → Numeric
  | nan => .nan
  | units n _ => .finite (n / 10 ^ s)

/-- Assignment of a `NUMERIC` to the column: round to `s` fractional digits.
`none` is the error `numeric field overflow`, which the infinities raise too. -/
def store (p s : ℕ) : Numeric → Option (Fixed p s)
  | .finite q =>
      if h : (roundHalfAway (q * 10 ^ s)).natAbs < 10 ^ p then some (units _ h) else none
  | .nan => some nan
  | .infinity => none
  | .negInfinity => none

/-- The column's zero. -/
def zero : Fixed p s := units 0 (by simp)

/-- The number of units stored, `NaN` counting as none. -/
def toUnits : Fixed p s → ℤ
  | nan => 0
  | units n _ => n

@[simp] theorem toUnits_units (n : ℤ) (h : n.natAbs < 10 ^ p) :
    (units n h : Fixed p s).toUnits = n := rfl

@[simp] theorem toNumeric_units (n : ℤ) (h : n.natAbs < 10 ^ p) :
    (units n h : Fixed p s).toNumeric = .finite (n / 10 ^ s) := rfl

/-- What was stored when the assignment went through: `NaN` for `NaN`, and
otherwise the rounded number of units of a finite value. -/
theorem store_cases {x : Numeric} {v : Fixed p s} (h : store p s x = some v) :
    (x = .nan ∧ v = nan) ∨
      ∃ q hn, x = .finite q ∧ v = units (roundHalfAway (q * 10 ^ s)) hn := by
  cases x with
  | negInfinity => cases h
  | infinity => cases h
  | nan => exact Or.inl ⟨rfl, by cases h; rfl⟩
  | finite q =>
    simp only [store] at h
    split at h
    · rename_i hn
      exact Or.inr ⟨q, hn, rfl, (Option.some.inj h).symm⟩
    · cases h

/-- Rounding does not take a value below zero. -/
theorem store_not_neg {x : Numeric} {v : Fixed p s} (h : store p s x = some v)
    (hx : x.lt (.finite 0) = false) : v.toNumeric.lt (.finite 0) = false := by
  rcases store_cases h with ⟨-, rfl⟩ | ⟨q, hn, rfl, rfl⟩
  · rfl
  · simp only [Numeric.lt_finite, decide_eq_false_iff_not, not_lt, toNumeric_units] at hx ⊢
    have hround : 0 ≤ roundHalfAway (q * 10 ^ s) := roundHalfAway_nonneg (by positivity)
    positivity

/-- A value that is stored as a positive one is not below zero. -/
theorem not_neg_of_store_pos {x : Numeric} {v : Fixed p s} (h : store p s x = some v)
    (hv : Numeric.lt (.finite 0) v.toNumeric = true) : x.lt (.finite 0) = false := by
  rcases store_cases h with ⟨rfl, -⟩ | ⟨q, hn, rfl, rfl⟩
  · rfl
  · simp only [Numeric.lt_finite, decide_eq_true_eq, decide_eq_false_iff_not, not_lt,
      toNumeric_units] at hv ⊢
    have hround : (0 : ℚ) < roundHalfAway (q * 10 ^ s) :=
      (div_pos_iff_of_pos_right (by positivity)).1 hv
    have hpos := pos_of_roundHalfAway_pos (by exact_mod_cast hround)
    exact (pos_of_mul_pos_left hpos (by positivity)).le

theorem store_finite_of_lt {q : ℚ} (h : (roundHalfAway (q * 10 ^ s)).natAbs < 10 ^ p) :
    store p s (.finite q) = some (units _ h) := dif_pos h

/-- A value with at most `s` fractional digits is a number of units. -/
theorem toNumeric_units_of_exact {q : ℚ} {n : ℤ} (hn : q * 10 ^ s = n) (h : n.natAbs < 10 ^ p) :
    (units n h : Fixed p s).toNumeric = .finite q := by
  have hpow : (10 : ℚ) ^ s ≠ 0 := by positivity
  rw [toNumeric_units, ← hn, mul_div_cancel_right₀ q hpow]

/-- **A value with at most `s` fractional digits is stored as it is**, when it is
in range. -/
theorem store_exact_iff {q : ℚ} {n : ℤ} (hn : q * 10 ^ s = n) {v : Fixed p s} :
    store p s (.finite q) = some v ↔ ∃ h : n.natAbs < 10 ^ p, v = units n h := by
  have hround : roundHalfAway (q * 10 ^ s) = n := by rw [hn, roundHalfAway_intCast]
  constructor
  · intro h
    rcases store_cases h with ⟨hnan, -⟩ | ⟨q', hlt, hq', hv⟩
    · cases hnan
    · cases hq'
      subst hround
      exact ⟨hlt, hv⟩
  · rintro ⟨h, rfl⟩
    subst hround
    exact store_finite_of_lt h

end Fixed

/-! ## Integers -/

/-- A value of type `INTEGER`. -/
abbrev Int4 : Type := { n : ℤ // -2 ^ 31 ≤ n ∧ n < 2 ^ 31 }

/-- `-` on `INTEGER`; `none` is the error `integer out of range`. -/
def Int4.sub (a b : Int4) : Option Int4 :=
  if h : -2 ^ 31 ≤ a.1 - b.1 ∧ a.1 - b.1 < 2 ^ 31 then some ⟨a.1 - b.1, h⟩ else none

theorem Int4.sub_eq_some {a b : Int4} (h : -2 ^ 31 ≤ a.1 - b.1) (h' : a.1 - b.1 < 2 ^ 31) :
    a.sub b = some ⟨a.1 - b.1, h, h'⟩ := dif_pos ⟨h, h'⟩

end Relational
