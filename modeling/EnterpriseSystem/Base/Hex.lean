import EnterpriseSystem.Base.Unicode

/-!
# Hexadecimal

Bytes as text, four bits to a digit.

* `toHex`, `fromHex` — the text of some bytes, and the bytes of a text up to its first
  pair that is no byte.
* `fromHex_toHex` — bytes that were written are read back.
* `isHex_iff` — a text is read to its end exactly when it is pairs of digits.
-/

namespace Hex

open Unicode (Bytes JsString)

/-- The digit of four bits. -/
def digit (n : ℕ) : UInt16 := UInt16.ofNat (if n < 10 then 0x30 + n else 0x57 + n)

/-- The four bits of a digit, which may be a capital letter. -/
def value? (u : UInt16) : Option ℕ :=
  if 0x30 ≤ u.toNat ∧ u.toNat ≤ 0x39 then some (u.toNat - 0x30)
  else if 0x41 ≤ u.toNat ∧ u.toNat ≤ 0x46 then some (u.toNat - 0x37)
  else if 0x61 ≤ u.toNat ∧ u.toNat ≤ 0x66 then some (u.toNat - 0x57)
  else none

/-- `buffer.toString('hex')`. -/
def toHex (bs : Bytes) : JsString := bs.flatMap fun b => [digit (b.toNat / 16), digit (b.toNat % 16)]

/-- `Buffer.from(text, 'hex')`. -/
def fromHex : JsString → Bytes
  | u :: v :: rest =>
    match value? u, value? v with
    | some a, some b => UInt8.ofNat (a * 16 + b) :: fromHex rest
    | _, _ => []
  | _ => []

/-- Pairs of digits, and nothing else. -/
def isHex : JsString → Bool
  | [] => true
  | [_] => false
  | u :: v :: rest => (value? u).isSome && (value? v).isSome && isHex rest

theorem value_digit {n : ℕ} (h : n < 16) : value? (digit n) = some n := by
  have hall : ∀ n < 16, value? (digit n) = some n := by decide
  exact hall n h

theorem toHex_cons (b : UInt8) (bs : Bytes) :
    toHex (b :: bs) = digit (b.toNat / 16) :: digit (b.toNat % 16) :: toHex bs := rfl

/-- **Bytes that were written** are read back. -/
theorem fromHex_toHex (bs : Bytes) : fromHex (toHex bs) = bs := by
  induction bs with
  | nil => rfl
  | cons b bs ih =>
    have hb := b.toNat_lt
    have hbyte : b.toNat / 16 * 16 + b.toNat % 16 = b.toNat := by omega
    rw [toHex_cons, fromHex, value_digit (by omega), value_digit (by omega)]
    simp only [hbyte, UInt8.ofNat_toNat, ih]

theorem isHex_toHex (bs : Bytes) : isHex (toHex bs) = true := by
  induction bs with
  | nil => rfl
  | cons b bs ih =>
    have hb := b.toNat_lt
    rw [toHex_cons, isHex, value_digit (by omega), value_digit (by omega), ih]
    rfl

/-- **A text is read to its end** exactly when it is pairs of digits. -/
theorem isHex_iff (s : JsString) : isHex s = true ↔ 2 * (fromHex s).length = s.length := by
  induction s using isHex.induct with
  | case1 => simp [isHex, fromHex]
  | case2 u => simp [isHex, fromHex]
  | case3 u v rest ih =>
    rw [isHex, fromHex]
    cases hu : value? u <;> cases hv : value? v <;> simp [ih]
    omega

/-- Of a text of pairs, all units are digits. -/
theorem isSome_value_of_isHex {s : JsString} (h : isHex s = true) :
    ∀ u ∈ s, (value? u).isSome = true := by
  induction s using isHex.induct with
  | case1 => simp
  | case2 u => exact nomatch h
  | case3 u v rest ih =>
    simp only [isHex, Bool.and_eq_true] at h
    simp only [List.mem_cons]
    rintro w (rfl | rfl | hw)
    · exact h.1.1
    · exact h.1.2
    · exact ih h.2 w hw

end Hex
