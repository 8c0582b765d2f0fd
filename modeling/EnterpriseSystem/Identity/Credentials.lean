import EnterpriseSystem.Base.Pattern
import EnterpriseSystem.Identity.Values

/-!
# Credentials

The two factories that check what a user types:
`src/domain/value-objects/email.vo.ts` and `password.vo.ts`.

* `Email.create` — trims, lower-cases and matches `EMAIL_REGEX`.
* `Email.reads_EMAIL_REGEX` — the expression reads what has one `@`, characters in front of
  it, and a domain of labels behind it.
* `Password.create` — asks for length and for four kinds of characters;
  `Password.setHash` — takes the hash the password gets afterwards.
* `Email.create_eq_ok`, `Password.create_eq_ok` — what they return.
-/

namespace EnterpriseSystem.Identity

open Patterns

/-- `[A-Z]`. -/
def isUpper (c : Char) : Bool := 'A' ≤ c && c ≤ 'Z'

/-- `[a-z]`. -/
def isLower (c : Char) : Bool := 'a' ≤ c && c ≤ 'z'

/-- `[0-9]`. -/
def isDigit (c : Char) : Bool := '0' ≤ c && c ≤ '9'

/-- `[a-zA-Z0-9]`. -/
def isAlphanumeric (c : Char) : Bool := isUpper c || isLower c || isDigit c

/-! ## Addresses -/

namespace Email

/-- The class of the characters in front of the `@`. -/
def isLocalChar (c : Char) : Bool :=
  isAlphanumeric c || ".!#$%&'*+/=?^_`\x7b|\x7d~-".toList.contains c

/-- `[a-zA-Z0-9-]`. -/
def isLabelChar (c : Char) : Bool := isAlphanumeric c || c == '-'

/-- `[a-zA-Z0-9](?:[a-zA-Z0-9-]{0,61}[a-zA-Z0-9])?`. -/
def labelRegex : Pattern Char :=
  .seq (.one isAlphanumeric) (.opt (.seq (.upTo (.one isLabelChar) 61) (.one isAlphanumeric)))

/-- `EMAIL_REGEX`, between `^` and `$`. -/
def EMAIL_REGEX : Pattern Char :=
  .seq (.plus (.one isLocalChar)) (.seq (.one (· == '@'))
    (.seq labelRegex (.many (.seq (.one (· == '.')) labelRegex))))

/-- A label of a domain: 1 to 63 letters, digits and hyphens, with no hyphen at
either end. -/
def isLabel (label : List Char) : Bool :=
  1 ≤ label.length && label.length ≤ 63 && label.all isLabelChar &&
    label.head? != some '-' && label.getLast? != some '-'

/-- One `@`, characters in front of it, and a domain of labels behind it. -/
def isAddress (s : List Char) : Bool :=
  match s.splitOn '@' with
  | [localPart, domain] =>
    !localPart.isEmpty && localPart.all isLocalChar && (domain.splitOn '.').all isLabel
  | _ => false

/-! ### The language of the expression -/

theorem isLabelChar_of_isAlphanumeric {c : Char} (h : isAlphanumeric c = true) :
    isLabelChar c = true := by
  simp [isLabelChar, h]

theorem isAlphanumeric_iff {c : Char} :
    isAlphanumeric c = true ↔ isLabelChar c = true ∧ c ≠ '-' := by
  constructor
  · intro h
    refine ⟨isLabelChar_of_isAlphanumeric h, ?_⟩
    rintro rfl
    exact absurd h (by decide)
  · rintro ⟨h, hne⟩
    simpa [isLabelChar, hne] using h

/-- **The expression of a label** reads labels. -/
theorem reads_labelRegex : Reads labelRegex fun w => isLabel w = true := by
  have htail := ((reads_upTo_one isLabelChar 61).seq (reads_one isAlphanumeric)).opt
  refine ((reads_one isAlphanumeric).seq htail).congr fun w => ⟨?_, fun h => ?_⟩
  · rintro ⟨_, _, ⟨a, ha, rfl⟩, ⟨mid, _, ⟨hmid, hall⟩, ⟨b, hb, rfl⟩, rfl⟩ | rfl, rfl⟩
    · obtain ⟨ha, ha'⟩ := isAlphanumeric_iff.1 ha
      obtain ⟨hb, hb'⟩ := isAlphanumeric_iff.1 hb
      simp only [isLabel, Bool.and_eq_true, decide_eq_true_eq, List.all_eq_true, bne_iff_ne]
      have hlast : ([a] ++ (mid ++ [b])).getLast? = some b := by
        rw [← List.append_assoc, List.getLast?_concat]
      refine ⟨⟨⟨⟨by simp, by simp; omega⟩, ?_⟩, by simpa using ha'⟩, by rw [hlast]; simpa using hb'⟩
      intro c hc
      simp only [List.singleton_append, List.mem_cons, List.mem_append, List.not_mem_nil,
        or_false] at hc
      rcases hc with rfl | hc | rfl
      · exact ha
      · exact hall c hc
      · exact hb
    · obtain ⟨ha, ha'⟩ := isAlphanumeric_iff.1 ha
      simp [isLabel, ha, ha']
  · simp only [isLabel, Bool.and_eq_true, decide_eq_true_eq, List.all_eq_true, bne_iff_ne] at h
    obtain ⟨⟨⟨⟨hpos, hlength⟩, hall⟩, hhead⟩, hlast⟩ := h
    obtain ⟨a, rest, rfl⟩ := List.exists_cons_of_ne_nil (List.ne_nil_of_length_pos hpos)
    have ha : isAlphanumeric a = true :=
      isAlphanumeric_iff.2 ⟨hall a List.mem_cons_self, by simpa using hhead⟩
    refine ⟨[a], rest, ⟨a, ha, rfl⟩, ?_, rfl⟩
    rcases List.eq_nil_or_concat rest with rfl | ⟨mid, b, rfl⟩
    · exact .inr rfl
    · rw [List.concat_eq_append] at hall hlast hlength ⊢
      have hb : isAlphanumeric b = true := by
        refine isAlphanumeric_iff.2 ⟨hall b (by simp), ?_⟩
        rw [← List.cons_append, List.getLast?_append] at hlast
        simpa using hlast
      refine .inl ⟨mid, [b], ⟨?_, fun c hc => hall c (by simp [hc])⟩, ⟨b, hb, rfl⟩, rfl⟩
      simp at hlength
      omega

/-- Labels have no dot, and no `@`. -/
theorem not_mem_of_isLabel {label : List Char} (h : isLabel label = true) :
    '.' ∉ label ∧ '@' ∉ label := by
  simp only [isLabel, Bool.and_eq_true, List.all_eq_true] at h
  exact ⟨fun hmem => absurd (h.1.1.2 _ hmem) (by decide),
    fun hmem => absurd (h.1.1.2 _ hmem) (by decide)⟩

/-- A character of a text is in one of the parts, or is what it is split at. -/
theorem mem_of_splitOn {sep c : Char} {w : List Char} (hc : c ∈ w) (hne : c ≠ sep) :
    ∃ u ∈ w.splitOn sep, c ∈ u := by
  have hjoined : [sep].intercalate (w.splitOn sep) = w := List.intercalate_splitOn sep
  obtain ⟨u, us, hsplit⟩ := List.exists_cons_of_ne_nil (List.splitOn_ne_nil sep w)
  rw [hsplit, intercalate_cons_eq] at hjoined
  rw [← hjoined] at hc
  rw [hsplit]
  rcases List.mem_append.1 hc with hc | hc
  · exact ⟨u, List.mem_cons_self, hc⟩
  · obtain ⟨v, hv, hmem⟩ := List.mem_flatten.1 hc
    obtain ⟨x, hx, rfl⟩ := List.mem_map.1 hv
    exact ⟨x, List.mem_cons_of_mem _ hx, (List.mem_cons.1 hmem).resolve_left hne⟩

theorem at_not_mem_localPart {l : List Char} (h : ∀ c ∈ l, isLocalChar c = true) : '@' ∉ l :=
  fun hmem => absurd (h _ hmem) (by decide)

theorem at_not_mem_domain {d : List Char} (h : ∀ label ∈ d.splitOn '.', isLabel label = true) :
    '@' ∉ d := by
  intro hmem
  obtain ⟨u, hu, hmem⟩ := mem_of_splitOn hmem (show '@' ≠ '.' by decide)
  exact (not_mem_of_isLabel (h u hu)).2 hmem

/-- A text with one `@` is split there. -/
theorem splitOn_at {l d : List Char} (hl : '@' ∉ l) (hd : '@' ∉ d) :
    (l ++ '@' :: d).splitOn '@' = [l, d] := by
  have hjoined : l ++ '@' :: d = ['@'].intercalate [l, d] := by simp [List.intercalate]
  rw [hjoined]
  refine List.splitOn_intercalate '@' (fun u hu => ?_) (by simp)
  rcases List.mem_pair.1 hu with rfl | rfl
  · exact hl
  · exact hd

/-- **Two parts** with an `@` between them. -/
theorem isAddress_iff (n : List Char) : isAddress n = true ↔
    ∃ l d, n = l ++ '@' :: d ∧ (l ≠ [] ∧ ∀ c ∈ l, isLocalChar c = true) ∧
      ∀ label ∈ d.splitOn '.', isLabel label = true := by
  constructor
  · intro h
    have hjoined : ['@'].intercalate (n.splitOn '@') = n := List.intercalate_splitOn '@'
    unfold isAddress at h
    split at h
    · rename_i l d hsplit
      simp only [Bool.and_eq_true, Bool.not_eq_true', List.isEmpty_eq_false_iff,
        List.all_eq_true] at h
      refine ⟨l, d, ?_, h.1, h.2⟩
      rw [← hjoined, hsplit, intercalate_cons_eq]
      simp
    · exact nomatch h
  · rintro ⟨l, d, rfl, ⟨hne, hlocal⟩, hlabels⟩
    rw [isAddress, splitOn_at (at_not_mem_localPart hlocal) (at_not_mem_domain hlabels)]
    simpa [hne] using ⟨hlocal, hlabels⟩

/-- **The expression** reads addresses. -/
theorem reads_EMAIL_REGEX : Reads EMAIL_REGEX fun w => isAddress w = true := by
  have hdomain := reads_labelRegex.separated fun w h => (not_mem_of_isLabel h).1
  refine ((reads_plus_one isLocalChar).seq ((reads_one (· == '@')).seq hdomain)).congr fun w => ?_
  rw [isAddress_iff]
  constructor
  · rintro ⟨l, _, hlocal, ⟨_, d, ⟨a, ha, rfl⟩, hlabels, rfl⟩, rfl⟩
    obtain rfl := eq_of_beq ha
    exact ⟨l, d, rfl, hlocal, hlabels⟩
  · rintro ⟨l, d, rfl, hlocal, hlabels⟩
    exact ⟨l, '@' :: d, hlocal, ⟨['@'], d, ⟨'@', beq_self_eq_true _, rfl⟩, hlabels, rfl⟩, rfl⟩

/-- Whether a text is accepted is decided by its parts. -/
instance (s : List Char) : Decidable (Accepts EMAIL_REGEX s) :=
  decidable_of_iff _ (reads_EMAIL_REGEX.accepts_iff s).symm

/-- `MAX_LENGTH`. -/
def MAX_LENGTH : ℕ := 320

/-- `Email.create`, for the runtime's `toLowerCase`. -/
def create (toLowerCase : String → String) (raw : String) : Except Thrown Email :=
  if raw = "" then .error (.error "Email must be a non-empty string")
  else
    let normalized := toLowerCase (trim raw)
    if utf16Length normalized > MAX_LENGTH then
      .error (.error s!"Email exceeds maximum length of {MAX_LENGTH} characters")
    else if ¬ Accepts EMAIL_REGEX normalized.toList then
      .error (.error s!"Invalid email address: \"{raw}\"")
    else .ok ⟨normalized⟩

/-- An address that is accepted is the text in normal form. -/
theorem create_eq_ok {toLowerCase : String → String} {raw : String} {email : Email}
    (h : create toLowerCase raw = .ok email) : email.value = toLowerCase (trim raw) := by
  unfold create at h
  dsimp only at h
  split_ifs at h
  exact congrArg Email.value (Except.ok.inj h).symm

end Email

/-! ## Passwords -/

namespace Password

/-- `MIN_LENGTH`. -/
def MIN_LENGTH : ℕ := 8

/-- `MAX_LENGTH`. -/
def MAX_LENGTH : ℕ := 128

/-- The characters that count as special. -/
def specialCharacters : List Char := "!@#$%^&*()_+-=[]\x7b\x7d;':\"\\|,.<>/?`~".toList

/-- The errors that `validateStrength` collects. -/
def strengthErrors (password : String) : List String :=
  (if utf16Length password < MIN_LENGTH then
    [s!"Password must be at least {MIN_LENGTH} characters long"] else []) ++
  (if utf16Length password > MAX_LENGTH then
    [s!"Password must not exceed {MAX_LENGTH} characters"] else []) ++
  (if password.toList.any isUpper then []
    else ["Password must contain at least one uppercase letter"]) ++
  (if password.toList.any isLower then []
    else ["Password must contain at least one lowercase letter"]) ++
  (if password.toList.any isDigit then []
    else ["Password must contain at least one digit"]) ++
  (if password.toList.any specialCharacters.contains then []
    else ["Password must contain at least one special character"])

/-- `validateStrength`. -/
def validateStrength (password : String) : Except Thrown Unit :=
  let errors := strengthErrors password
  if errors.length > 0 then
    let joined := "; ".intercalate errors
    .error (.error s!"Password validation failed: {joined}")
  else .ok ()

/-- `Password.create`. -/
def create (raw : String) : Except Thrown Password := do
  if raw = "" then
    .error (.error "Password must be a non-empty string")
  else
    validateStrength raw
    return ⟨raw, none⟩

/-- `setHash`: what the hasher has made of the raw value. -/
def setHash (password : Password) (hash : String) : Except Thrown Password :=
  if hash = "" then .error (.error "Hash must be a non-empty string")
  else .ok { password with hashedValue := some hash }

/-- A password that is accepted is the text itself, and not empty. -/
theorem create_eq_ok {raw : String} {password : Password} (h : create raw = .ok password) :
    raw ≠ "" ∧ password = ⟨raw, none⟩ := by
  unfold create at h
  split_ifs at h with hempty
  cases hstrength : validateStrength raw with
  | error e =>
    rw [hstrength] at h
    exact nomatch h
  | ok _ =>
    rw [hstrength] at h
    exact ⟨hempty, (Except.ok.inj h).symm⟩

end Password

end EnterpriseSystem.Identity
