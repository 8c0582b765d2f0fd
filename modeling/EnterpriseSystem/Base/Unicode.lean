import Mathlib

/-!
# Texts as code units and as bytes

A JavaScript string is any sequence of UTF-16 code units, surrogates without a
partner included.  As bytes it is written in UTF-8, which has no place for them.

* `JsString`, `isWellFormed` — a string, and whether its surrogates come in pairs.
* `scalars`, `ofScalars` — the characters of a string, U+FFFD for every lone
  surrogate, and the string of some characters.
* `utf8`, `fromUtf8` — the bytes of some characters, and the characters of some
  bytes, U+FFFD for every maximal part that is none.
* `fromUtf8_utf8` — bytes that were written are read back.
* `ofScalars_scalars_iff` — a string is the string of its characters exactly when
  it is well formed; `scalars_append_units` — characters after a string stay what they
  are.
* `toBytes_eq_iff` — the bytes of two strings are the same when their characters are.
-/

namespace Unicode

/-- A string: UTF-16 code units. -/
abbrev JsString : Type := List UInt16

/-- Bytes. -/
abbrev Bytes : Type := List UInt8

/-- U+FFFD. -/
def replacement : Char := Char.ofNat 0xFFFD

/-! ## UTF-16 -/

/-- The first half of a pair. -/
def isHigh (u : UInt16) : Bool := 0xD800 ≤ u.toNat && u.toNat ≤ 0xDBFF

/-- The second half of a pair. -/
def isLow (u : UInt16) : Bool := 0xDC00 ≤ u.toNat && u.toNat ≤ 0xDFFF

/-- The character that a unit is by itself. -/
def single (u : UInt16) : Char :=
  if isHigh u || isLow u then replacement else Char.ofNat u.toNat

/-- The character that a pair is. -/
def paired (u v : UInt16) : Char :=
  Char.ofNat (0x10000 + (u.toNat - 0xD800) * 0x400 + (v.toNat - 0xDC00))

/-- The characters of a string. -/
def scalars : JsString → List Char
  | [] => []
  | [u] => [single u]
  | u :: v :: rest =>
    if isHigh u && isLow v then paired u v :: scalars rest else single u :: scalars (v :: rest)

/-- The surrogates come in pairs. -/
def isWellFormed : JsString → Bool
  | [] => true
  | [u] => !(isHigh u || isLow u)
  | u :: v :: rest =>
    if isHigh u && isLow v then isWellFormed rest
    else !(isHigh u || isLow u) && isWellFormed (v :: rest)

/-- The units of a character. -/
def units (c : Char) : JsString :=
  if c.toNat < 0x10000 then [UInt16.ofNat c.toNat]
  else [UInt16.ofNat (0xD800 + (c.toNat - 0x10000) / 0x400),
    UInt16.ofNat (0xDC00 + (c.toNat - 0x10000) % 0x400)]

/-- The string of some characters. -/
def ofScalars (cs : List Char) : JsString := cs.flatMap units

theorem toNat_ofNat_of_scalar {n : ℕ} (h : n < 0xD800 ∨ 0xDFFF < n ∧ n < 0x110000) :
    (Char.ofNat n).toNat = n := by
  have hvalid : n.isValidChar := h
  unfold Char.ofNat
  rw [dif_pos hvalid]
  rfl

theorem units_replacement : units replacement = [0xFFFD] := by decide

/-- A unit that is no surrogate is the unit of its character. -/
theorem units_single {u : UInt16} (h : (isHigh u || isLow u) = false) : units (single u) = [u] := by
  have hlt : u.toNat < 0x10000 := u.toNat_lt
  have hscalar : u.toNat < 0xD800 ∨ 0xDFFF < u.toNat ∧ u.toNat < 0x110000 := by
    simp only [isHigh, isLow, Bool.or_eq_false_iff, Bool.and_eq_false_iff,
      decide_eq_false_iff_not] at h
    omega
  unfold single units
  rw [h, if_neg Bool.false_ne_true, toNat_ofNat_of_scalar hscalar, if_pos hlt, UInt16.ofNat_toNat]

/-- A pair is the units of its character. -/
theorem units_paired {u v : UInt16} (hu : isHigh u = true) (hv : isLow v = true) :
    units (paired u v) = [u, v] := by
  simp only [isHigh, isLow, Bool.and_eq_true, decide_eq_true_eq] at hu hv
  have hscalar : (paired u v).toNat = 0x10000 + (u.toNat - 0xD800) * 0x400 + (v.toNat - 0xDC00) :=
    toNat_ofNat_of_scalar (by omega)
  have hhigh : 0xD800 + ((paired u v).toNat - 0x10000) / 0x400 = u.toNat := by omega
  have hlow : 0xDC00 + ((paired u v).toNat - 0x10000) % 0x400 = v.toNat := by omega
  unfold units
  rw [if_neg (by omega), hhigh, hlow, UInt16.ofNat_toNat, UInt16.ofNat_toNat]

theorem ofScalars_cons (c : Char) (cs : List Char) : ofScalars (c :: cs) = units c ++ ofScalars cs :=
  rfl

/-- A unit comes back, unless it is a lone surrogate. -/
theorem ofScalars_single_cons_iff (u : UInt16) (cs : List Char) (rest : JsString) :
    ofScalars (single u :: cs) = u :: rest ↔
      (isHigh u || isLow u) = false ∧ ofScalars cs = rest := by
  rw [ofScalars_cons]
  cases h : isHigh u || isLow u with
  | false =>
    rw [units_single h]
    simp
  | true =>
    have hlost : single u = replacement := if_pos h
    rw [hlost, units_replacement]
    constructor
    · intro heq
      obtain rfl : 0xFFFD = u := (List.cons.inj heq).1
      exact absurd h (by decide)
    · exact fun hfalse => absurd hfalse.1 (by decide)

/-- **A string is the string of its characters** exactly when it is well formed. -/
theorem ofScalars_scalars_iff (s : JsString) :
    ofScalars (scalars s) = s ↔ isWellFormed s = true := by
  induction s using scalars.induct with
  | case1 => exact ⟨fun _ => rfl, fun _ => rfl⟩
  | case2 u =>
    refine (ofScalars_single_cons_iff u [] []).trans ?_
    show _ ↔ (!(isHigh u || isLow u)) = true
    simp [ofScalars]
  | case3 u v rest hpair ih =>
    have hboth : isHigh u = true ∧ isLow v = true := by simpa using hpair
    have hscalars : scalars (u :: v :: rest) = paired u v :: scalars rest := if_pos hpair
    have hformed : isWellFormed (u :: v :: rest) = isWellFormed rest := if_pos hpair
    rw [hscalars, hformed, ofScalars_cons, units_paired hboth.1 hboth.2]
    refine Iff.trans ?_ ih
    simp
  | case4 u v rest hpair ih =>
    have hscalars : scalars (u :: v :: rest) = single u :: scalars (v :: rest) := if_neg hpair
    have hformed : isWellFormed (u :: v :: rest) =
      (!(isHigh u || isLow u) && isWellFormed (v :: rest)) := if_neg hpair
    rw [hscalars, hformed]
    refine (ofScalars_single_cons_iff u _ _).trans ?_
    rw [Bool.and_eq_true, Bool.not_eq_true']
    exact and_congr_right fun _ => ih

theorem toNat_scalar (c : Char) :
    c.toNat < 0xD800 ∨ 0xDFFF < c.toNat ∧ c.toNat < 0x110000 := c.valid

/-- The first unit of a character ends no pair. -/
theorem units_eq_cons (c : Char) : ∃ u rest, units c = u :: rest ∧ isLow u = false := by
  have hvalid := toNat_scalar c
  unfold units
  split_ifs with h
  · refine ⟨_, [], rfl, ?_⟩
    simp only [isLow, UInt16.toNat_ofNat', Bool.and_eq_false_iff, decide_eq_false_iff_not]
    omega
  · refine ⟨_, _, rfl, ?_⟩
    simp only [isLow, UInt16.toNat_ofNat', Bool.and_eq_false_iff, decide_eq_false_iff_not]
    omega

theorem scalars_units_append (c : Char) (rest : JsString) :
    scalars (units c ++ rest) = c :: scalars rest := by
  have hvalid := toNat_scalar c
  unfold units
  split_ifs with h
  · have hunit : (UInt16.ofNat c.toNat).toNat = c.toNat := by
      rw [UInt16.toNat_ofNat']
      omega
    have hhigh : isHigh (UInt16.ofNat c.toNat) = false := by
      simp only [isHigh, hunit, Bool.and_eq_false_iff, decide_eq_false_iff_not]
      omega
    have hlow : isLow (UInt16.ofNat c.toNat) = false := by
      simp only [isLow, hunit, Bool.and_eq_false_iff, decide_eq_false_iff_not]
      omega
    have hsingle : single (UInt16.ofNat c.toNat) = c := by
      unfold single
      rw [hhigh, hlow, hunit]
      exact Char.ofNat_toNat c
    cases rest with
    | nil => exact congrArg (· :: []) hsingle
    | cons v rest =>
      show scalars (UInt16.ofNat c.toNat :: v :: rest) = _
      rw [scalars, hhigh, Bool.false_and, if_neg Bool.false_ne_true, hsingle]
  · set u := UInt16.ofNat (0xD800 + (c.toNat - 0x10000) / 0x400) with hu
    set v := UInt16.ofNat (0xDC00 + (c.toNat - 0x10000) % 0x400) with hv
    have hunit : u.toNat = 0xD800 + (c.toNat - 0x10000) / 0x400 := by
      rw [hu, UInt16.toNat_ofNat']
      omega
    have hunit' : v.toNat = 0xDC00 + (c.toNat - 0x10000) % 0x400 := by
      rw [hv, UInt16.toNat_ofNat']
      omega
    have hpair : (isHigh u && isLow v) = true := by
      simp only [isHigh, isLow, hunit, hunit', Bool.and_eq_true, decide_eq_true_eq]
      omega
    have hpaired : paired u v = c := by
      have hsum : 0x10000 + (u.toNat - 0xD800) * 0x400 + (v.toNat - 0xDC00) = c.toNat := by omega
      unfold paired
      rw [hsum]
      exact Char.ofNat_toNat c
    show scalars (u :: v :: rest) = _
    rw [scalars, if_pos hpair, hpaired]

theorem scalars_ofScalars (cs : List Char) : scalars (ofScalars cs) = cs := by
  induction cs with
  | nil => rfl
  | cons c cs ih => rw [ofScalars_cons, scalars_units_append, ih]

/-- A unit that ends no pair begins a character of its own. -/
theorem scalars_append_cons (s : JsString) {u : UInt16} (h : isLow u = false) (rest : JsString) :
    scalars (s ++ u :: rest) = scalars s ++ scalars (u :: rest) := by
  induction s using scalars.induct with
  | case1 => rfl
  | case2 v =>
    show scalars (v :: u :: rest) = single v :: scalars (u :: rest)
    rw [scalars, h, Bool.and_false, if_neg Bool.false_ne_true]
  | case3 v w tail hpair ih =>
    show scalars (v :: w :: (tail ++ u :: rest)) = scalars (v :: w :: tail) ++ _
    rw [scalars, scalars, if_pos hpair, if_pos hpair, ih]
    rfl
  | case4 v w tail hpair ih =>
    show scalars (v :: w :: (tail ++ u :: rest)) = scalars (v :: w :: tail) ++ _
    rw [scalars, scalars, if_neg hpair, if_neg hpair]
    exact congrArg _ ih

/-- **Characters after a string** stay what they are, whatever follows. -/
theorem scalars_append_units (s : JsString) (c : Char) (rest : JsString) :
    scalars (s ++ (units c ++ rest)) = scalars s ++ c :: scalars rest := by
  obtain ⟨u, tail, hunits, hlow⟩ := units_eq_cons c
  rw [← scalars_units_append, hunits, List.cons_append, scalars_append_cons s hlow]

theorem scalars_append (s : JsString) (cs : List Char) :
    scalars (s ++ ofScalars cs) = scalars s ++ cs := by
  cases cs with
  | nil => simp [ofScalars]
  | cons c cs => rw [ofScalars_cons, scalars_append_units, scalars_ofScalars]

/-! ## UTF-8 -/

/-- The bytes of a character. -/
def encodeChar (c : Char) : Bytes :=
  let n := c.toNat
  if n < 0x80 then [UInt8.ofNat n]
  else if n < 0x800 then [UInt8.ofNat (0xC0 + n / 64), UInt8.ofNat (0x80 + n % 64)]
  else if n < 0x10000 then
    [UInt8.ofNat (0xE0 + n / 4096), UInt8.ofNat (0x80 + n / 64 % 64), UInt8.ofNat (0x80 + n % 64)]
  else [UInt8.ofNat (0xF0 + n / 262144), UInt8.ofNat (0x80 + n / 4096 % 64),
    UInt8.ofNat (0x80 + n / 64 % 64), UInt8.ofNat (0x80 + n % 64)]

/-- The bytes of some characters. -/
def utf8 (cs : List Char) : Bytes := cs.flatMap encodeChar

/-- Where a decoder is: between characters, or within one, with what it still
needs, between which bounds the next byte must be, and what it has so far. -/
inductive Decoder where
  | between
  | within (needed lower upper codePoint : ℕ)

/-- The first byte of a character, or one that is none. -/
def Decoder.first (b : ℕ) : List Char × Decoder :=
  if b < 0x80 then ([Char.ofNat b], .between)
  else if b < 0xC2 then ([replacement], .between)
  else if b < 0xE0 then ([], .within 1 0x80 0xBF (b - 0xC0))
  else if b < 0xF0 then
    ([], .within 2 (if b = 0xE0 then 0xA0 else 0x80) (if b = 0xED then 0x9F else 0xBF) (b - 0xE0))
  else if b < 0xF5 then
    ([], .within 3 (if b = 0xF0 then 0x90 else 0x80) (if b = 0xF4 then 0x8F else 0xBF) (b - 0xF0))
  else ([replacement], .between)

/-- One byte: the characters that it completes. -/
def Decoder.next (d : Decoder) (b : ℕ) : List Char × Decoder :=
  match d with
  | .between => first b
  | .within needed lower upper codePoint =>
    if lower ≤ b ∧ b ≤ upper then
      let codePoint := codePoint * 64 + (b - 0x80)
      if needed ≤ 1 then ([Char.ofNat codePoint], .between)
      else ([], .within (needed - 1) 0x80 0xBF codePoint)
    else (replacement :: (first b).1, (first b).2)

/-- The characters of the bytes that are left. -/
def Decoder.read : Decoder → Bytes → List Char
  | .between, [] => []
  | .within .., [] => [replacement]
  | d, b :: bs => (d.next b.toNat).1 ++ read (d.next b.toNat).2 bs

/-- The characters of some bytes. -/
def fromUtf8 (bs : Bytes) : List Char := Decoder.between.read bs

section

variable {c : Char} {bs : Bytes}

theorem Decoder.read_cons_ofNat (d : Decoder) {n : ℕ} (h : n < 256) (bs : Bytes) :
    d.read (UInt8.ofNat n :: bs) = (d.next n).1 ++ (d.next n).2.read bs := by
  have hn : (UInt8.ofNat n).toNat = n := UInt8.toNat_ofNat_of_lt' h
  cases d with
  | between => rw [read, hn]
  | within => rw [read, hn]

/-- A byte within a character that is not its last one. -/
theorem Decoder.next_middle {needed lower upper codePoint b : ℕ} (hlower : lower ≤ b)
    (hupper : b ≤ upper) (hneeded : 1 < needed) :
    (Decoder.within needed lower upper codePoint).next b =
      ([], .within (needed - 1) 0x80 0xBF (codePoint * 64 + (b - 0x80))) := by
  unfold next
  dsimp only
  rw [if_pos ⟨hlower, hupper⟩, if_neg (not_le.2 hneeded)]

/-- The last byte of a character. -/
theorem Decoder.next_last {lower upper codePoint b : ℕ} (hlower : lower ≤ b) (hupper : b ≤ upper) :
    (Decoder.within 1 lower upper codePoint).next b =
      ([Char.ofNat (codePoint * 64 + (b - 0x80))], .between) := by
  unfold next
  dsimp only
  rw [if_pos ⟨hlower, hupper⟩, if_pos le_rfl]

theorem Decoder.first_two {b : ℕ} (h : 0xC2 ≤ b) (h' : b < 0xE0) :
    Decoder.between.next b = ([], .within 1 0x80 0xBF (b - 0xC0)) := by
  unfold next first
  rw [if_neg (by omega), if_neg (by omega), if_pos h']

theorem Decoder.first_three {b : ℕ} (h : 0xE0 ≤ b) (h' : b < 0xF0) :
    Decoder.between.next b = ([], .within 2 (if b = 0xE0 then 0xA0 else 0x80)
      (if b = 0xED then 0x9F else 0xBF) (b - 0xE0)) := by
  unfold next first
  rw [if_neg (by omega), if_neg (by omega), if_neg (by omega), if_pos h']

theorem Decoder.first_four {b : ℕ} (h : 0xF0 ≤ b) (h' : b < 0xF5) :
    Decoder.between.next b = ([], .within 3 (if b = 0xF0 then 0x90 else 0x80)
      (if b = 0xF4 then 0x8F else 0xBF) (b - 0xF0)) := by
  unfold next first
  rw [if_neg (by omega), if_neg (by omega), if_neg (by omega), if_neg (by omega), if_pos h']

/-- The bytes of a character are read as that character. -/
theorem read_encodeChar (c : Char) (bs : Bytes) :
    Decoder.between.read (encodeChar c ++ bs) = c :: Decoder.between.read bs := by
  have hscalar := toNat_scalar c
  have hc : Char.ofNat c.toNat = c := Char.ofNat_toNat c
  unfold encodeChar
  generalize c.toNat = n at hscalar hc ⊢
  dsimp only
  split_ifs with h1 h2 h3
  · show Decoder.read _ (UInt8.ofNat n :: bs) = _
    rw [Decoder.read_cons_ofNat _ (by omega)]
    simp [Decoder.next, Decoder.first, h1, hc]
  · have hn : (0xC0 + n / 64 - 0xC0) * 64 + (0x80 + n % 64 - 0x80) = n := by omega
    show Decoder.read _ (UInt8.ofNat _ :: UInt8.ofNat _ :: bs) = _
    rw [Decoder.read_cons_ofNat _ (by omega), Decoder.first_two (by omega) (by omega),
      Decoder.read_cons_ofNat _ (by omega), Decoder.next_last (by omega) (by omega), hn, hc]
    rfl
  · have hn : ((0xE0 + n / 4096 - 0xE0) * 64 + (0x80 + n / 64 % 64 - 0x80)) * 64 +
        (0x80 + n % 64 - 0x80) = n := by omega
    show Decoder.read _ (UInt8.ofNat _ :: UInt8.ofNat _ :: UInt8.ofNat _ :: bs) = _
    rw [Decoder.read_cons_ofNat _ (by omega), Decoder.first_three (by omega) (by omega),
      Decoder.read_cons_ofNat _ (by omega),
      Decoder.next_middle (by split_ifs <;> omega) (by split_ifs <;> omega) (by decide),
      Decoder.read_cons_ofNat _ (by omega), Decoder.next_last (by omega) (by omega), hn, hc]
    rfl
  · have hn : (((0xF0 + n / 262144 - 0xF0) * 64 + (0x80 + n / 4096 % 64 - 0x80)) * 64 +
        (0x80 + n / 64 % 64 - 0x80)) * 64 + (0x80 + n % 64 - 0x80) = n := by omega
    show Decoder.read _ (UInt8.ofNat _ :: UInt8.ofNat _ :: UInt8.ofNat _ :: UInt8.ofNat _ :: bs) = _
    rw [Decoder.read_cons_ofNat _ (by omega), Decoder.first_four (by omega) (by omega),
      Decoder.read_cons_ofNat _ (by omega),
      Decoder.next_middle (by split_ifs <;> omega) (by split_ifs <;> omega) (by decide),
      Decoder.read_cons_ofNat _ (by omega),
      Decoder.next_middle (by omega) (by omega) (by decide),
      Decoder.read_cons_ofNat _ (by omega), Decoder.next_last (by omega) (by omega), hn, hc]
    rfl

/-- **Bytes that were written** are read back. -/
theorem fromUtf8_utf8 (cs : List Char) : fromUtf8 (utf8 cs) = cs := by
  induction cs with
  | nil => rfl
  | cons c cs ih =>
    show Decoder.between.read (encodeChar c ++ utf8 cs) = _
    rw [read_encodeChar]
    exact congrArg _ ih

/-! ## Strings and bytes -/

/-- `Buffer.from(s, 'utf8')`. -/
def toBytes (s : JsString) : Bytes := utf8 (scalars s)

/-- `buffer.toString('utf8')`. -/
def ofBytes (bs : Bytes) : JsString := ofScalars (fromUtf8 bs)

/-- The bytes tell characters apart. -/
theorem toBytes_eq_iff {a b : JsString} : toBytes a = toBytes b ↔ scalars a = scalars b := by
  constructor
  · intro h
    rw [← fromUtf8_utf8 (scalars a), ← fromUtf8_utf8 (scalars b)]
    exact congrArg fromUtf8 h
  · exact fun h => congrArg utf8 h

/-- **A string comes back from its bytes** exactly when it is well formed. -/
theorem ofBytes_toBytes_iff (s : JsString) : ofBytes (toBytes s) = s ↔ isWellFormed s = true := by
  unfold ofBytes toBytes
  rw [fromUtf8_utf8]
  exact ofScalars_scalars_iff s

/-- Bytes that were written from a string are written again. -/
theorem toBytes_append_ofBytes (s s' : JsString) :
    toBytes (s ++ ofBytes (toBytes s')) = toBytes s ++ toBytes s' := by
  unfold ofBytes toBytes
  rw [fromUtf8_utf8, scalars_append]
  exact List.flatMap_append

end

end Unicode
