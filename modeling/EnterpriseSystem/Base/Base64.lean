import EnterpriseSystem.Base.Unicode

/-!
# Base64

Bytes as text, six bits to a character.

* `toBase64`, `fromBase64` — the text of some bytes, padded, and the bytes of a
  text, characters outside the alphabet skipped.
* `fromBase64_toBase64` — bytes that were written are read back.
-/

namespace Base64

open Unicode (Bytes)

/-- The alphabet. -/
def alphabet : List Char :=
  "ABCDEFGHIJKLMNOPQRSTUVWXYZabcdefghijklmnopqrstuvwxyz0123456789+/".toList

/-- The character of six bits. -/
def digit (n : ℕ) : Char := alphabet.getD n '='

/-- The six bits of a character. -/
def value? (c : Char) : Option ℕ :=
  if c = '-' then some 62
  else if c = '_' then some 63
  else alphabet.idxOf? c

/-- The text of some bytes. -/
def toBase64 : Bytes → List Char
  | [] => []
  | [a] => [digit (a.toNat / 4), digit (a.toNat % 4 * 16), '=', '=']
  | [a, b] =>
    [digit (a.toNat / 4), digit (a.toNat % 4 * 16 + b.toNat / 16), digit (b.toNat % 16 * 4), '=']
  | a :: b :: c :: rest =>
    digit (a.toNat / 4) :: digit (a.toNat % 4 * 16 + b.toNat / 16) ::
      digit (b.toNat % 16 * 4 + c.toNat / 64) :: digit (c.toNat % 64) :: toBase64 rest

/-- The bytes of some groups of six bits. -/
def bytes : List ℕ → Bytes
  | [] => []
  | [_] => []
  | [p, q] => [UInt8.ofNat (p * 4 + q / 16)]
  | [p, q, r] => [UInt8.ofNat (p * 4 + q / 16), UInt8.ofNat (q % 16 * 16 + r / 4)]
  | p :: q :: r :: s :: rest =>
    UInt8.ofNat (p * 4 + q / 16) :: UInt8.ofNat (q % 16 * 16 + r / 4) ::
      UInt8.ofNat (r % 4 * 64 + s) :: bytes rest

/-- The bytes of a text. -/
def fromBase64 (text : List Char) : Bytes := bytes (text.filterMap value?)

theorem value_digit {n : ℕ} (h : n < 64) : value? (digit n) = some n := by
  have hall : ∀ n < 64, value? (digit n) = some n := by decide +kernel
  exact hall n h

theorem value_padding : value? '=' = none := by decide +kernel

/-- **Bytes that were written** are read back. -/
theorem fromBase64_toBase64 (bs : Bytes) : fromBase64 (toBase64 bs) = bs := by
  unfold fromBase64
  induction bs using toBase64.induct with
  | case1 => rfl
  | case2 a =>
    have ha := a.toNat_lt
    have hfirst : a.toNat / 4 * 4 + a.toNat % 4 * 16 / 16 = a.toNat := by omega
    unfold toBase64
    rw [List.filterMap_cons_some (value_digit (by omega)),
      List.filterMap_cons_some (value_digit (by omega)), List.filterMap_cons_none value_padding,
      List.filterMap_cons_none value_padding]
    simp only [List.filterMap_nil, bytes, hfirst, UInt8.ofNat_toNat]
  | case3 a b =>
    have ha := a.toNat_lt
    have hb := b.toNat_lt
    have hfirst : a.toNat / 4 * 4 + (a.toNat % 4 * 16 + b.toNat / 16) / 16 = a.toNat := by omega
    have hsecond : (a.toNat % 4 * 16 + b.toNat / 16) % 16 * 16 + b.toNat % 16 * 4 / 4 =
      b.toNat := by omega
    unfold toBase64
    rw [List.filterMap_cons_some (value_digit (by omega)),
      List.filterMap_cons_some (value_digit (by omega)),
      List.filterMap_cons_some (value_digit (by omega)), List.filterMap_cons_none value_padding]
    simp only [List.filterMap_nil, bytes, hfirst, hsecond, UInt8.ofNat_toNat]
  | case4 a b c rest ih =>
    have ha := a.toNat_lt
    have hb := b.toNat_lt
    have hc := c.toNat_lt
    have hfirst : a.toNat / 4 * 4 + (a.toNat % 4 * 16 + b.toNat / 16) / 16 = a.toNat := by omega
    have hsecond : (a.toNat % 4 * 16 + b.toNat / 16) % 16 * 16 +
      (b.toNat % 16 * 4 + c.toNat / 64) / 4 = b.toNat := by omega
    have hthird : (b.toNat % 16 * 4 + c.toNat / 64) % 4 * 64 + c.toNat % 64 = c.toNat := by omega
    unfold toBase64
    rw [List.filterMap_cons_some (value_digit (by omega)),
      List.filterMap_cons_some (value_digit (by omega)),
      List.filterMap_cons_some (value_digit (by omega)),
      List.filterMap_cons_some (value_digit (by omega))]
    simp only [bytes, hfirst, hsecond, hthird, UInt8.ofNat_toNat, ih]

end Base64
