import EnterpriseSystem.Application.CreateUser

/-!
# Two password policies

The constraints of `CreateUserDto.password`, and `Password.create`.

* `passwordRegex` — the regular expression; `accepts_passwordRegex_iff` — it is
  `CreateUserDto.passwordPattern`.
* `countingValidator` — a validator that counts characters.
* `BoundaryAccepts`, `DomainAccepts` — what the two policies accept.
* `boundaryAccepts_iff`, `domainAccepts_iff` — as conditions on the characters.
* `samePolicy_iff` — for which texts they agree.
-/

namespace EnterpriseSystem.Application

open Identity Patterns

/-! ## The regular expression -/

/-- `.`. -/
def anyChar : Pattern Char := .one fun c => !isLineTerminator c

/-- `(?=.*[f])`. -/
def someAhead (f : Char → Bool) : Pattern Char := .ahead (.seq (.many anyChar) (.one f))

/-- `(?=.*[a-z])(?=.*[A-Z])(?=.*\d)(?=.*[^A-Za-z0-9]).+`, between `^` and `$`. -/
def passwordRegex : Pattern Char :=
  .seq (someAhead isLower) (.seq (someAhead isUpper) (.seq (someAhead isDigit)
    (.seq (someAhead fun c => !isAlphanumeric c) (.plus anyChar))))

/-- On a line, a character ahead is any character of the text. -/
theorem exists_takes_someAhead_iff {f : Char → Bool} {s : List Char}
    (hline : ∀ c ∈ s, (!isLineTerminator c) = true) :
    (∃ t, Takes (.seq (.many anyChar) (.one f)) s t) ↔ s.any f = true := by
  rw [anyChar, exists_takes_many_one_seq_one, List.any_eq_true]
  constructor
  · rintro ⟨u, a, v, rfl, -, ha⟩
    exact ⟨a, by simp, ha⟩
  · rintro ⟨a, hmem, ha⟩
    obtain ⟨u, v, rfl⟩ := List.append_of_mem hmem
    exact ⟨u, a, v, rfl, fun b hb => hline b (List.mem_append_left _ hb), ha⟩

theorem takes_someAhead_seq (f : Char → Bool) (p : Pattern Char) (s t : List Char) :
    Takes (.seq (someAhead f) p) s t ↔
      (∃ u, Takes (.seq (.many anyChar) (.one f)) s u) ∧ Takes p s t :=
  takes_ahead_seq _ p s t

/-- **The expression** accepts one line with the four kinds of characters. -/
theorem accepts_passwordRegex_iff (s : String) :
    Accepts passwordRegex s.toList ↔ CreateUserDto.passwordPattern s = true := by
  have hempty : (!s.isEmpty) = true ↔ s.toList ≠ [] := by
    rw [Bool.not_eq_true', ← Bool.not_eq_true, String.isEmpty_iff, ne_eq, String.toList_eq_nil_iff]
  have hplus : Takes (.plus anyChar) s.toList [] ↔
      s.toList ≠ [] ∧ ∀ c ∈ s.toList, (!isLineTerminator c) = true :=
    (reads_plus_one _).accepts_iff s.toList
  unfold Accepts passwordRegex CreateUserDto.passwordPattern
  rw [takes_someAhead_seq, takes_someAhead_seq, takes_someAhead_seq, takes_someAhead_seq, hplus]
  simp only [Bool.and_eq_true, hempty, List.all_eq_true]
  by_cases hline : ∀ c ∈ s.toList, (!isLineTerminator c) = true
  · rw [exists_takes_someAhead_iff hline, exists_takes_someAhead_iff hline,
      exists_takes_someAhead_iff hline, exists_takes_someAhead_iff hline]
    tauto
  · tauto

/-! ## Two ways to count -/

/-- There are at most twice as many code units as characters. -/
theorem utf16Length_bounds (s : String) :
    s.toList.length ≤ utf16Length s ∧ utf16Length s ≤ 2 * s.toList.length := by
  unfold utf16Length
  induction s.toList with
  | nil => simp
  | cons c cs ih =>
    simp only [List.map_cons, List.sum_cons, List.length_cons]
    split_ifs <;> omega

/-- Where they are more, there is a character that is no letter and no digit. -/
theorem any_not_isAlphanumeric_of_lt {s : String} (h : s.toList.length < utf16Length s) :
    (s.toList.any fun c => !isAlphanumeric c) = true := by
  by_contra hnone
  simp only [List.any_eq_true, Bool.not_eq_true', not_exists, not_and, Bool.not_eq_false] at hnone
  refine h.ne' ?_
  have hone : ∀ c ∈ s.toList, (if c.toNat < 0x10000 then 1 else 2) = 1 := by
    intro c hc
    have hascii := hnone c hc
    simp only [isAlphanumeric, isUpper, isLower, isDigit, Bool.or_eq_true, Bool.and_eq_true,
      decide_eq_true_eq, Char.le_def, UInt32.le_iff_toNat_le] at hascii
    have hvalue : c.val.toNat = c.toNat := rfl
    have hsmall : c.toNat < 0x10000 := by
      simp at hascii
      omega
    exact if_pos hsmall
  rw [utf16Length, List.map_congr_left hone]
  simp

/-- A special character of the domain is no letter and no digit. -/
theorem any_not_isAlphanumeric_of_any_special {s : String}
    (h : s.toList.any Password.specialCharacters.contains = true) :
    (s.toList.any fun c => !isAlphanumeric c) = true := by
  obtain ⟨c, hc, hspecial⟩ := List.any_eq_true.1 h
  have hall : (Password.specialCharacters.all fun c => !isAlphanumeric c) = true := by
    decide +kernel
  exact List.any_eq_true.2 ⟨c, hc, List.all_eq_true.1 hall c (List.contains_iff_mem.1 hspecial)⟩

/-! ## The two policies -/

/-- `isLength` counts characters, a pair of surrogates as one. -/
def countingValidator (isEmail : String → Bool) : ValidatorJs where
  isEmail := isEmail
  isLength s min max := decide (min ≤ s.toList.length) && max.all (s.toList.length ≤ ·)

/-- The constraints of `CreateUserDto.password`. -/
def passwordConstraints (v : ValidatorJs) : List Constraint :=
  ((CreateUserDto.properties v).filter (·.1 = "password")).flatMap (·.2.2)

/-- The input object accepts the password. -/
def BoundaryAccepts (v : ValidatorJs) (s : String) : Prop :=
  ∀ c ∈ passwordConstraints v, c.holds s = true

/-- `Password.create` does not throw. -/
def DomainAccepts (s : String) : Prop := ∃ password, Password.create s = .ok password

/-- A lower-case letter, an upper-case letter and a digit. -/
def HasLettersAndDigit (s : String) : Prop :=
  s.toList.any isLower = true ∧ s.toList.any isUpper = true ∧ s.toList.any isDigit = true

/-- The text is one line. -/
def IsLine (s : String) : Prop := ∀ c ∈ s.toList, isLineTerminator c = false

theorem passwordPattern_iff (s : String) :
    CreateUserDto.passwordPattern s = true ↔
      s ≠ "" ∧ HasLettersAndDigit s ∧ IsLine s ∧
        (s.toList.any fun c => !isAlphanumeric c) = true := by
  have hempty : (!s.isEmpty) = true ↔ s ≠ "" := by
    rw [Bool.not_eq_true', ← Bool.not_eq_true, String.isEmpty_iff]
  simp only [CreateUserDto.passwordPattern, Bool.and_eq_true, hempty, List.all_eq_true,
    Bool.not_eq_true', HasLettersAndDigit, IsLine]
  tauto

theorem boundaryAccepts_iff (isEmail : String → Bool) (s : String) :
    BoundaryAccepts (countingValidator isEmail) s ↔
      HasLettersAndDigit s ∧ IsLine s ∧ (s.toList.any fun c => !isAlphanumeric c) = true ∧
        8 ≤ s.toList.length ∧ s.toList.length ≤ 128 := by
  have hempty : 8 ≤ s.toList.length → s ≠ "" := by
    rintro hlength rfl
    simp at hlength
  simp only [BoundaryAccepts, passwordConstraints, CreateUserDto.properties, Matches, MaxLength,
    MinLength, IsString, countingValidator]
  simp [passwordPattern_iff]
  tauto

theorem strengthErrors_eq_nil_iff (s : String) :
    Password.strengthErrors s = [] ↔
      8 ≤ utf16Length s ∧ utf16Length s ≤ 128 ∧ s.toList.any isUpper = true ∧
        s.toList.any isLower = true ∧ s.toList.any isDigit = true ∧
        s.toList.any Password.specialCharacters.contains = true := by
  simp [Password.strengthErrors, Password.MIN_LENGTH, Password.MAX_LENGTH]

theorem domainAccepts_iff (s : String) :
    DomainAccepts s ↔
      HasLettersAndDigit s ∧ s.toList.any Password.specialCharacters.contains = true ∧
        8 ≤ utf16Length s ∧ utf16Length s ≤ 128 := by
  have hstrength : (∃ password, Password.create s = .ok password) ↔
      s ≠ "" ∧ Password.strengthErrors s = [] := by
    unfold Password.create Password.validateStrength
    by_cases hempty : s = ""
    · simp [hempty]
    · by_cases herrors : Password.strengthErrors s = []
      · simp [hempty, herrors, bind, pure, Except.pure, Except.bind]
      · simp [hempty, herrors, List.length_pos_iff, bind, Except.bind]
  have hempty : 8 ≤ utf16Length s → s ≠ "" := by
    rintro hlength rfl
    simp [utf16Length] at hlength
  rw [DomainAccepts, hstrength]
  simp only [strengthErrors_eq_nil_iff, HasLettersAndDigit]
  constructor
  · rintro ⟨-, hlong, hshort, hupper, hlower, hdigit, hspecial⟩
    exact ⟨⟨hlower, hupper, hdigit⟩, hspecial, hlong, hshort⟩
  · rintro ⟨⟨hlower, hupper, hdigit⟩, hspecial, hlong, hshort⟩
    exact ⟨hempty hlong, hlong, hshort, hupper, hlower, hdigit, hspecial⟩

/-! ## Agreement -/

/-- The policies disagree about the text: it has a lower-case letter, an upper-case
letter and a digit, and

* a special character of the domain, in 8 to 128 code units, on more than one line, or
* a special character of the domain, in fewer than 8 characters of 8 or more code units, or
* at most 128 characters of more than 128 code units, on one line, or
* 8 to 128 characters on one line, one of them no letter and no digit, and none of them
  a special character of the domain. -/
def Disputed (s : String) : Prop :=
  HasLettersAndDigit s ∧
    ((s.toList.any Password.specialCharacters.contains = true ∧
        8 ≤ utf16Length s ∧ utf16Length s ≤ 128 ∧ ¬ IsLine s) ∨
      (s.toList.any Password.specialCharacters.contains = true ∧
        s.toList.length < 8 ∧ 8 ≤ utf16Length s) ∨
      (IsLine s ∧ s.toList.length ≤ 128 ∧ 128 < utf16Length s) ∨
      (IsLine s ∧ 8 ≤ s.toList.length ∧ s.toList.length ≤ 128 ∧
        (s.toList.any fun c => !isAlphanumeric c) = true ∧
        ¬ s.toList.any Password.specialCharacters.contains = true))

/-- The input object and the domain accept the same passwords, at this text. -/
def SamePolicy (isEmail : String → Bool) (s : String) : Prop :=
  BoundaryAccepts (countingValidator isEmail) s ↔ DomainAccepts s

/-- **The two policies agree** about the texts that are not disputed, and about no other. -/
theorem samePolicy_iff (isEmail : String → Bool) (s : String) :
    SamePolicy isEmail s ↔ ¬ Disputed s := by
  have hbounds := utf16Length_bounds s
  have hastral := @any_not_isAlphanumeric_of_lt s
  have hspecial := @any_not_isAlphanumeric_of_any_special s
  rw [SamePolicy, boundaryAccepts_iff, domainAccepts_iff, Disputed]
  grind

/-- A space is a special character at the boundary, and none in the domain. -/
theorem not_samePolicy : ¬ ∀ isEmail s, SamePolicy isEmail s := by
  intro h
  have hsame := h (fun _ => true) "Aa1 aaaa"
  have hkinds : HasLettersAndDigit "Aa1 aaaa" := by
    unfold HasLettersAndDigit
    decide +kernel
  have hline : IsLine "Aa1 aaaa" := by simp [IsLine, isLineTerminator]
  have hboundary : BoundaryAccepts (countingValidator fun _ => true) "Aa1 aaaa" :=
    (boundaryAccepts_iff _ _).2 ⟨hkinds, hline, by decide +kernel⟩
  have hspecial : ¬ "Aa1 aaaa".toList.any Password.specialCharacters.contains = true := by
    decide +kernel
  exact hspecial ((domainAccepts_iff _).1 (hsame.1 hboundary)).2.1

end EnterpriseSystem.Application
