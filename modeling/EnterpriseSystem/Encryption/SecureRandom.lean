import EnterpriseSystem.Base.Residues
import EnterpriseSystem.Base.Unicode

/-!
# Random texts

`secureRandom` of `src/common/utils/crypto.util.ts`, which reduces every random byte
modulo the length of the character set.

* `secureRandom`, `secureRandom_eq` — the text of some random bytes.
* `Unbiased` — every text over the characters comes from as many byte sequences.
* `unbiased_iff` — which is so exactly when the length of the set divides 256.
-/

namespace EnterpriseSystem.Encryption

open Unicode Residues Finset

/-- `secureRandom`, for what `randomBytes(length)` draws. -/
def secureRandom (length : ℕ) (charset : JsString) (bytes : Fin length → Fin 256) :
    Except String JsString :=
  if length ≤ 0 then .error "Length must be positive"
  else if h : charset.length = 0 then .error "Charset must not be empty"
  else
    .ok ((List.finRange length).foldl (fun result i =>
      result ++ [charset.get ⟨(bytes i).val % charset.length,
        Nat.mod_lt _ (Nat.pos_of_ne_zero h)⟩]) [])

/-- A text of that length over the characters. -/
def IsOver (length : ℕ) (charset : JsString) (text : JsString) : Prop :=
  text.length = length ∧ ∀ u ∈ text, u ∈ charset

/-- The byte sequences that a text is produced from. -/
def producing (length : ℕ) (charset text : JsString) : Finset (Fin length → Fin 256) :=
  {bytes | secureRandom length charset bytes = .ok text}

/-- **Every text** of that length over the characters is produced by the same number of
byte sequences. -/
def Unbiased (length : ℕ) (charset : JsString) : Prop :=
  ∀ text text', IsOver length charset text → IsOver length charset text' →
    #(producing length charset text) = #(producing length charset text')

/-! ## The loop -/

section

variable {length : ℕ} {charset : JsString}

/-- One character behind the other. -/
theorem foldl_append_singleton {α β : Type} (f : α → β) (xs : List α) (result : List β) :
    xs.foldl (fun result x => result ++ [f x]) result = result ++ xs.map f := by
  induction xs generalizing result with
  | nil => simp
  | cons x xs ih => simp [ih]

/-- **The loop** puts the character of every byte. -/
theorem secureRandom_eq (hlength : 0 < length) (hcharset : 0 < charset.length)
    (bytes : Fin length → Fin 256) :
    secureRandom length charset bytes =
      .ok (List.ofFn fun i => charset.get ⟨(bytes i).val % charset.length,
        Nat.mod_lt _ hcharset⟩) := by
  rw [secureRandom, if_neg (by omega), dif_neg (by omega), foldl_append_singleton,
    List.nil_append, List.ofFn_eq_map]

/-- The text of some places in the character set. -/
def spell (charset : JsString) (places : Fin length → Fin charset.length) : JsString :=
  List.ofFn fun i => charset.get (places i)

theorem isOver_spell (places : Fin length → Fin charset.length) :
    IsOver length charset (spell charset places) := by
  refine ⟨List.length_ofFn, fun u hu => ?_⟩
  obtain ⟨i, rfl⟩ := List.mem_ofFn.1 hu
  exact List.get_mem charset _

/-- A text over the characters is spelled by some places. -/
theorem exists_spell {text : JsString} (h : IsOver length charset text) :
    ∃ places : Fin length → Fin charset.length, spell charset places = text := by
  obtain ⟨rfl, hmem⟩ := h
  choose places hplaces using fun i => List.mem_iff_get.1 (hmem _ (text.get_mem i))
  refine ⟨places, ?_⟩
  rw [spell, funext hplaces]
  exact List.ofFn_get text

/-- Of distinct characters, a text is produced from the bytes that are reduced to its places. -/
theorem producing_spell (hdistinct : charset.Nodup) (hlength : 0 < length)
    (hcharset : 0 < charset.length) (places : Fin length → Fin charset.length) :
    producing length charset (spell charset places) =
      draws 256 charset.length fun i => (places i : ℕ) := by
  ext bytes
  simp only [producing, draws, mem_filter, mem_univ, true_and]
  rw [secureRandom_eq hlength hcharset, Except.ok.injEq, spell, List.ofFn_inj, funext_iff]
  refine forall_congr' fun i => ?_
  rw [hdistinct.get_inj_iff, Fin.ext_iff]

end

/-- **The texts are unbiased** exactly for the character sets whose length divides 256. -/
theorem unbiased_iff {length : ℕ} {charset : JsString} (hlength : 1 ≤ length)
    (hcharset : 1 ≤ charset.length) (hdistinct : charset.Nodup) :
    Unbiased length charset ↔ charset.length ∣ 256 := by
  rw [← card_draws_const_iff hcharset hlength]
  constructor
  · intro h v w
    have hsame := h _ _ (isOver_spell v) (isOver_spell w)
    rwa [producing_spell hdistinct hlength hcharset,
      producing_spell hdistinct hlength hcharset] at hsame
  · rintro h text text' htext htext'
    obtain ⟨v, rfl⟩ := exists_spell htext
    obtain ⟨w, rfl⟩ := exists_spell htext'
    rw [producing_spell hdistinct hlength hcharset, producing_spell hdistinct hlength hcharset]
    exact h v w

/-- `0123456789`. -/
def digits : JsString := [0x30, 0x31, 0x32, 0x33, 0x34, 0x35, 0x36, 0x37, 0x38, 0x39]

/-- A code of six digits is biased. -/
theorem biased_digits : ¬ Unbiased 6 digits := fun h =>
  absurd ((unbiased_iff (by decide) (by decide) (by decide)).1 h) (by decide)

/-- **Not every character set** gives unbiased texts. -/
theorem not_unbiased :
    ¬ ∀ (length : ℕ) (charset : JsString), 1 ≤ length → 1 ≤ charset.length → charset.Nodup →
      Unbiased length charset := by
  intro h
  have hdigit := h 1 digits le_rfl (by decide) (by decide) [0x30] [0x39]
    ⟨rfl, by simp [digits]⟩ ⟨rfl, by simp [digits]⟩
  revert hdigit
  decide +kernel

end EnterpriseSystem.Encryption
