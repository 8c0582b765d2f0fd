import EnterpriseSystem.Base.Hex
import EnterpriseSystem.Encryption.SecretComparison

/-!
# Passwords under scrypt

`hashPassword` and `verifyPassword` of `src/common/utils/crypto.util.ts`.

* `Scrypt` — what the two rely on.
* `hashPassword`, `verifyPassword` — the functions.
* `IsHashOf` — a text that is salt and key of a password.
* `verifyPassword_hashPassword` — a password verifies against its hash.
* `verifyPassword_eq_ok_true_iff` — what else it verifies against: the key only has to
  begin with what the decoder makes of the second part.
* `isHashOf_iff`, `sound_iff` — when a text that is accepted is a hash.
-/

namespace EnterpriseSystem.Encryption

open Unicode Hex

/-! ## The functions -/

/-- The parameters of the key derivation. -/
structure ScryptOptions where
  N : ℕ
  r : ℕ
  p : ℕ
  deriving DecidableEq

/-- `scrypt` of `crypto`: as many bytes as are asked for, a shorter key in front of a
longer one. -/
structure Scrypt where
  derive : JsString → Bytes → ℕ → ScryptOptions → Bytes
  length_derive : ∀ password salt n options, (derive password salt n options).length = n
  take_derive : ∀ password salt n m options, n ≤ m →
    (derive password salt m options).take n = derive password salt n options

/-- `SCRYPT_KEYLEN`. -/
def SCRYPT_KEYLEN : ℕ := 64

/-- `SCRYPT_COST`, `SCRYPT_BLOCK_SIZE` and `SCRYPT_PARALLELIZATION`. -/
def scryptOptions : ScryptOptions := { N := 16384, r := 8, p := 1 }

/-- `':'`. -/
def colon : UInt16 := 0x3A

variable (scrypt : Scrypt)

/-- `hashPassword`, for the 32 bytes that are drawn. -/
def hashPassword (password : JsString) (salt : List.Vector UInt8 32) : JsString :=
  let derivedKey := scrypt.derive password salt.toList SCRYPT_KEYLEN scryptOptions
  toHex salt.toList ++ colon :: toHex derivedKey

/-- `verifyPassword`. -/
def verifyPassword (password storedHash : JsString) : Except String Bool :=
  match storedHash.splitOn colon with
  | saltHex :: hashHex :: _ =>
    if saltHex = [] ∨ hashHex = [] then .ok false
    else
      let salt := fromHex saltHex
      let expectedHash := fromHex hashHex
      let derivedKey := scrypt.derive password salt expectedHash.length scryptOptions
      timingSafeEqual derivedKey expectedHash
  | _ => .ok false

/-! ## What is accepted -/

/-- **A hash of the password**: a salt in hexadecimal and, behind the colon, the full key
under that salt in hexadecimal. -/
def IsHashOf (password storedHash : JsString) : Prop :=
  ∃ saltHex hashHex, storedHash = saltHex ++ colon :: hashHex ∧ isHex saltHex = true ∧
    isHex hashHex = true ∧
    fromHex hashHex = scrypt.derive password (fromHex saltHex) SCRYPT_KEYLEN scryptOptions

/-- A text of that form: digits in pairs on both sides of one colon, 128 of them behind it. -/
def isHashText (storedHash : JsString) : Bool :=
  match storedHash.splitOn colon with
  | [saltHex, hashHex] => isHex saltHex && isHex hashHex && hashHex.length == 2 * SCRYPT_KEYLEN
  | _ => false

/-- The first two parts of a text. -/
def HasParts (storedHash saltHex hashHex : JsString) : Prop :=
  ∃ more, storedHash.splitOn colon = saltHex :: hashHex :: more

/-- One of the first two parts is missing or empty. -/
def lacksPart (storedHash : JsString) : Bool :=
  match storedHash.splitOn colon with
  | saltHex :: hashHex :: _ => saltHex.isEmpty || hashHex.isEmpty
  | _ => true

/-- The key under what the first part is decoded to begins with what the second part is
decoded to. -/
def KeyBeginsWith (password storedHash : JsString) : Prop :=
  ∃ saltHex hashHex, HasParts storedHash saltHex hashHex ∧
    fromHex hashHex <+: scrypt.derive password (fromHex saltHex)
      (max SCRYPT_KEYLEN (fromHex hashHex).length) scryptOptions

/-- **The password** verifies against its hashes, and the text is accepted only when it is
one. -/
def Sound (password storedHash : JsString) : Prop :=
  (∀ salt, verifyPassword scrypt password (hashPassword scrypt password salt) = .ok true) ∧
    (verifyPassword scrypt password storedHash = .ok true → IsHashOf scrypt password storedHash)

/-! ## Texts in two parts -/

section

variable {scrypt} {password storedHash saltHex hashHex : JsString}

theorem colon_not_mem {s : JsString} (h : isHex s = true) : colon ∉ s := fun hmem =>
  absurd (isSome_value_of_isHex h colon hmem) (by decide)

/-- Hexadecimal parts are the parts of their text. -/
theorem splitOn_of_isHex (hsalt : isHex saltHex = true) (hhash : isHex hashHex = true) :
    (saltHex ++ colon :: hashHex).splitOn colon = [saltHex, hashHex] := by
  have hjoined : saltHex ++ colon :: hashHex = [colon].intercalate [saltHex, hashHex] := by
    simp [List.intercalate]
  rw [hjoined]
  refine List.splitOn_intercalate colon (fun l hl => ?_) (by simp)
  rcases List.mem_pair.1 hl with rfl | rfl
  · exact colon_not_mem hsalt
  · exact colon_not_mem hhash

/-- A text is its parts with the colon between. -/
theorem eq_of_splitOn (h : storedHash.splitOn colon = [saltHex, hashHex]) :
    storedHash = saltHex ++ colon :: hashHex := by
  have hjoined : [colon].intercalate (storedHash.splitOn colon) = storedHash :=
    List.intercalate_splitOn colon
  rw [h] at hjoined
  simpa [List.intercalate] using hjoined.symm

/-- A key is compared with a key of the same length. -/
theorem timingSafeEqual_derive (salt expected : Bytes) :
    timingSafeEqual (scrypt.derive password salt expected.length scryptOptions) expected =
      .ok (decide (scrypt.derive password salt expected.length scryptOptions = expected)) :=
  if_pos (scrypt.length_derive ..)

/-- A key of the length of some bytes is these when longer keys begin with them. -/
theorem derive_eq_iff (salt expected : Bytes) :
    scrypt.derive password salt expected.length scryptOptions = expected ↔
      expected <+: scrypt.derive password salt (max SCRYPT_KEYLEN expected.length) scryptOptions := by
  rw [← scrypt.take_derive password salt expected.length (max SCRYPT_KEYLEN expected.length)
    scryptOptions (le_max_right ..), List.prefix_iff_eq_take]
  exact eq_comm

/-- **What is accepted**: both parts are there, and the key begins with the second one. -/
theorem verifyPassword_eq_ok_true_iff :
    verifyPassword scrypt password storedHash = .ok true ↔
      lacksPart storedHash = false ∧ KeyBeginsWith scrypt password storedHash := by
  unfold verifyPassword lacksPart KeyBeginsWith HasParts
  rcases hparts : storedHash.splitOn colon with _ | ⟨saltHex, _ | ⟨hashHex, more⟩⟩
  · simp
  · simp
  · by_cases hempty : saltHex = [] ∨ hashHex = []
    · rcases hempty with rfl | rfl <;> simp
    · obtain ⟨hsalt, hhash⟩ := not_or.1 hempty
      simp [hsalt, hhash, timingSafeEqual_derive, derive_eq_iff]

/-- **The password** verifies against its hashes. -/
theorem verifyPassword_hashPassword (password : JsString) (salt : List.Vector UInt8 32) :
    verifyPassword scrypt password (hashPassword scrypt password salt) = .ok true := by
  have hsplit := splitOn_of_isHex (isHex_toHex salt.toList)
    (isHex_toHex (scrypt.derive password salt.toList SCRYPT_KEYLEN scryptOptions))
  have hne : ∀ bs : Bytes, 0 < bs.length → toHex bs ≠ [] := by
    intro bs hbs h
    have hback := fromHex_toHex bs
    rw [h] at hback
    rw [← hback] at hbs
    exact absurd hbs (by simp [fromHex])
  have hsalt := hne salt.toList (by simp)
  have hkey := hne (scrypt.derive password salt.toList SCRYPT_KEYLEN scryptOptions)
    (by rw [scrypt.length_derive]; decide)
  rw [verifyPassword, hashPassword]
  simp only [hsplit, hsalt, hkey, or_self, if_false, fromHex_toHex, scrypt.length_derive]
  simp [timingSafeEqual]

/-- **The texts of hashes**: a text of that form whose key begins with its second part. -/
theorem isHashOf_iff : IsHashOf scrypt password storedHash ↔
    isHashText storedHash = true ∧ KeyBeginsWith scrypt password storedHash := by
  have hlength : ∀ hashHex : JsString, isHex hashHex = true →
      (hashHex.length = 2 * SCRYPT_KEYLEN ↔ (fromHex hashHex).length = SCRYPT_KEYLEN) := by
    intro hashHex h
    rw [← (isHex_iff hashHex).1 h]
    omega
  constructor
  · rintro ⟨saltHex, hashHex, rfl, hsalt, hhash, hkey⟩
    have hkeylen : (fromHex hashHex).length = SCRYPT_KEYLEN := by rw [hkey, scrypt.length_derive]
    have hsplit := splitOn_of_isHex hsalt hhash
    constructor
    · rw [isHashText, hsplit]
      simp [hsalt, hhash, (hlength hashHex hhash).2 hkeylen]
    · refine ⟨saltHex, hashHex, ⟨[], hsplit⟩, ?_⟩
      rw [hkeylen, max_self, ← hkey]
  · rintro ⟨htext, saltHex, hashHex, ⟨more, hparts⟩, hbegins⟩
    rw [isHashText, hparts] at htext
    cases more with
    | cons _ _ => exact nomatch htext
    | nil =>
      simp only [Bool.and_eq_true, beq_iff_eq] at htext
      obtain ⟨⟨hsalt, hhash⟩, hdigits⟩ := htext
      have hkeylen := (hlength hashHex hhash).1 hdigits
      refine ⟨saltHex, hashHex, eq_of_splitOn hparts, hsalt, hhash, ?_⟩
      have hkey := (derive_eq_iff (fromHex saltHex) (fromHex hashHex)).2 hbegins
      rw [← hkey, hkeylen]

end

/-! ## When it is a hash -/

/-- A key that begins with these bytes, for every password. -/
def scryptOf (bytes : Bytes) : Scrypt where
  derive _ _ n _ := (List.range n).map fun i => bytes.getD i 0
  length_derive _ _ n _ := by simp
  take_derive _ _ n m _ h := by rw [← List.map_take, List.take_range, min_eq_left h]

/-- A key that begins with the second part of a text. -/
theorem keyBeginsWith_scryptOf {password storedHash saltHex hashHex : JsString}
    (h : HasParts storedHash saltHex hashHex) :
    KeyBeginsWith (scryptOf (fromHex hashHex)) password storedHash := by
  refine ⟨saltHex, hashHex, h, ?_⟩
  rw [← derive_eq_iff]
  refine List.ext_getElem (by simp [scryptOf]) fun i hi hi' => ?_
  simp [scryptOf, hi']

/-- **A text is accepted only as a hash**, for one password, exactly when it has the form of
one or the key of the password does not begin with its second part.  For all passwords and
whatever the keys are, exactly when it has that form or lacks a part. -/
theorem sound_iff (storedHash : JsString) :
    (∀ (scrypt : Scrypt) (password : JsString),
      Sound scrypt password storedHash ↔ isHashText storedHash = true ∨
        lacksPart storedHash = true ∨ ¬ KeyBeginsWith scrypt password storedHash) ∧
    ((∀ scrypt password, Sound scrypt password storedHash) ↔
      isHashText storedHash = true ∨ lacksPart storedHash = true) := by
  have hone : ∀ (scrypt : Scrypt) (password : JsString),
      Sound scrypt password storedHash ↔ isHashText storedHash = true ∨
        lacksPart storedHash = true ∨ ¬ KeyBeginsWith scrypt password storedHash := by
    intro scrypt password
    rw [Sound, verifyPassword_eq_ok_true_iff, isHashOf_iff,
      and_iff_right (verifyPassword_hashPassword password)]
    cases lacksPart storedHash <;> cases isHashText storedHash <;> simp
  refine ⟨hone, fun h => ?_, fun h scrypt password => ?_⟩
  · rcases hparts : storedHash.splitOn colon with _ | ⟨saltHex, _ | ⟨hashHex, more⟩⟩
    · exact .inr (by rw [lacksPart, hparts])
    · exact .inr (by rw [lacksPart, hparts])
    · have hkey : KeyBeginsWith (scryptOf (fromHex hashHex)) [] storedHash :=
        keyBeginsWith_scryptOf ⟨more, hparts⟩
      rcases (hone _ _).1 (h (scryptOf (fromHex hashHex)) []) with hform | hlacks | hnot
      · exact .inl hform
      · exact .inr hlacks
      · exact absurd hkey hnot
  · exact (hone _ _).2 (h.imp_right .inl)

/-- **Every password** verifies against a text whose second part begins with no byte. -/
theorem verifyPassword_of_no_byte (scrypt : Scrypt) (password : JsString)
    {storedHash saltHex hashHex : JsString} (h : HasParts storedHash saltHex hashHex)
    (hsalt : saltHex ≠ []) (hhash : hashHex ≠ []) (hbyte : fromHex hashHex = []) :
    verifyPassword scrypt password storedHash = .ok true := by
  rw [verifyPassword_eq_ok_true_iff]
  obtain ⟨more, hparts⟩ := h
  refine ⟨by simp [lacksPart, hparts, hsalt, hhash], saltHex, hashHex, ⟨more, hparts⟩, ?_⟩
  rw [hbyte]
  exact List.nil_prefix

/-- `ab:zz`. -/
def corrupted : JsString := [0x61, 0x62, 0x3A, 0x7A, 0x7A]

/-- A corrupted text is accepted, and is no hash. -/
theorem not_sound :
    ¬ ∀ (scrypt : Scrypt) (password storedHash : JsString), Sound scrypt password storedHash := by
  intro h
  have hparts : HasParts corrupted [0x61, 0x62] [0x7A, 0x7A] := ⟨[], by decide⟩
  have haccepted := verifyPassword_of_no_byte (scryptOf []) [0x78] hparts (by simp) (by simp)
    (by decide)
  have hform := (isHashOf_iff.1 ((h (scryptOf []) [0x78] corrupted).2 haccepted)).1
  exact absurd hform (by decide)

end EnterpriseSystem.Encryption
