import EnterpriseSystem.Base.Unicode

/-!
# Comparing secrets

`EncryptionService.timingSafeCompare`, and `constantTimeCompare` of
`src/common/utils/crypto.util.ts`.

* `timingSafeEqual` — what the two rely on.
* `constantTimeCompare_eq` — the one is the comparison of the characters.
* `timingSafeCompare_eq` — so is the other, but it throws when there are as many code
  units and not as many bytes.
* `agreesWithEquality_iff` — for which strings both tell whether they are equal.
-/

namespace EnterpriseSystem.Encryption

open Unicode

/-! ## The functions -/

/-- `timingSafeEqual` of `crypto`, with the message of the `RangeError`. -/
def timingSafeEqual (a b : Bytes) : Except String Bool :=
  if a.length = b.length then .ok (decide (a = b))
  else .error "Input buffers must have the same byte length"

/-- `timingSafeCompare`. -/
def timingSafeCompare (a b : JsString) : Except String Bool :=
  if a.length ≠ b.length then .ok false
  else
    let bufA := toBytes a
    let bufB := toBytes b
    timingSafeEqual bufA bufB

/-- `constantTimeCompare` of two strings. -/
def constantTimeCompare (a b : JsString) : Except String Bool := do
  let bufA := toBytes a
  let bufB := toBytes b
  if bufA.length ≠ bufB.length then
    let _ ← timingSafeEqual bufA bufA
    return false
  timingSafeEqual bufA bufB

/-- Neither throws, and both return whether the strings are equal. -/
def AgreesWithEquality (a b : JsString) : Prop :=
  timingSafeCompare a b = .ok (decide (a = b)) ∧ constantTimeCompare a b = .ok (decide (a = b))

/-! ## What they compare -/

variable {a b : JsString}

/-- **The comparison of the bytes** is the comparison of the characters. -/
theorem constantTimeCompare_eq (a b : JsString) :
    constantTimeCompare a b = .ok (decide (scalars a = scalars b)) := by
  by_cases hlength : (toBytes a).length = (toBytes b).length
  · simp [constantTimeCompare, timingSafeEqual, hlength, toBytes_eq_iff]
  · have hne : scalars a ≠ scalars b := fun h => hlength (congrArg List.length (toBytes_eq_iff.2 h))
    simp [constantTimeCompare, timingSafeEqual, hlength, hne, bind, Except.bind, pure, Except.pure]

/-- Strings of one length, whose bytes may differ in number. -/
theorem timingSafeCompare_eq (h : a.length = b.length) :
    timingSafeCompare a b =
      if (toBytes a).length = (toBytes b).length then .ok (decide (scalars a = scalars b))
      else .error "Input buffers must have the same byte length" := by
  simp [timingSafeCompare, timingSafeEqual, h, toBytes_eq_iff]

theorem timingSafeCompare_of_length_ne (h : a.length ≠ b.length) :
    timingSafeCompare a b = .ok false := if_pos h

/-- Well-formed strings are told apart by their characters. -/
theorem eq_of_scalars_eq (ha : isWellFormed a = true) (hb : isWellFormed b = true)
    (h : scalars a = scalars b) : a = b := by
  rw [← (ofScalars_scalars_iff a).2 ha, ← (ofScalars_scalars_iff b).2 hb, h]

/-- So `constantTimeCompare` is right for them. -/
theorem constantTimeCompare_of_wellFormed (ha : isWellFormed a = true)
    (hb : isWellFormed b = true) : constantTimeCompare a b = .ok (decide (a = b)) := by
  have hiff : scalars a = scalars b ↔ a = b := ⟨eq_of_scalars_eq ha hb, congrArg scalars⟩
  rw [constantTimeCompare_eq]
  simp [hiff]

/-- A comparison of characters is right when different strings have different ones. -/
theorem decide_scalars_iff :
    decide (scalars a = scalars b) = decide (a = b) ↔ (scalars a = scalars b → a = b) := by
  rw [decide_eq_decide]
  exact ⟨fun h => h.1, fun h => ⟨h, congrArg scalars⟩⟩

/-- **The comparisons agree with equality** exactly when the strings, if they are different,
are different after U+FFFD has been put for every lone surrogate, and have as many bytes
when they have as many code units. -/
theorem agreesWithEquality_iff (a b : JsString) :
    AgreesWithEquality a b ↔
      (scalars a = scalars b → a = b) ∧
        (a.length = b.length → (toBytes a).length = (toBytes b).length) := by
  rw [AgreesWithEquality, constantTimeCompare_eq, Except.ok.injEq, decide_scalars_iff, and_comm]
  refine and_congr_right fun htold => ?_
  by_cases hlength : a.length = b.length
  · rw [timingSafeCompare_eq hlength, forall_prop_of_true hlength]
    by_cases hbytes : (toBytes a).length = (toBytes b).length
    · rw [if_pos hbytes, Except.ok.injEq, decide_scalars_iff]
      exact iff_of_true htold hbytes
    · rw [if_neg hbytes]
      exact iff_of_false nofun hbytes
  · have hne : a ≠ b := fun h => hlength (congrArg List.length h)
    rw [timingSafeCompare_of_length_ne hlength, decide_eq_false hne]
    exact iff_of_true rfl fun h => absurd h hlength

/-- **Two kinds of strings** for which they do not: `é` and `e`, for which the one throws,
and a lone surrogate and U+FFFD, which both take for equal. -/
theorem not_agreesWithEquality :
    ¬ AgreesWithEquality [0xE9] [0x65] ∧ ¬ AgreesWithEquality [0xD800] [0xFFFD] := by
  refine ⟨fun h => ?_, fun h => ?_⟩
  · exact absurd h.1 (by decide +kernel)
  · exact absurd h.2 (by decide +kernel)

end EnterpriseSystem.Encryption
