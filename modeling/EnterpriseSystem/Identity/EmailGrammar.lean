import EnterpriseSystem.Identity.Credentials

/-!
# Email addresses

What `Email.create` accepts, and what it makes of it.

* `Email.localPart`, `Email.domain` — the getters.
* `CaseFolding` — what is relied on of `toLowerCase`.
* `EmailGrammar` — the grammar of addresses; `emailGrammar_iff`.
* `create_eq_ok_iff` — a text is accepted exactly when its normal form is in the grammar.
* `create_value`, `localPart_at_domain` — an address is accepted again, and is its parts.
* `create_of_alike` — the case of ASCII letters and white space make no difference.
* `email_create` — all of it.
-/

namespace EnterpriseSystem.Identity

open Patterns

/-! ## Getters -/

/-- `this.value.split('@')[0]`. -/
def Email.localPart (e : Email) : Option String :=
  (e.value.toList.splitOn '@')[0]?.map String.ofList

/-- `this.value.split('@')[1]`. -/
def Email.domain (e : Email) : Option String :=
  (e.value.toList.splitOn '@')[1]?.map String.ofList

/-! ## The grammar -/

/-- **What is relied on of `toLowerCase`**: on ASCII it lower-cases the letters, what it has
lower-cased it leaves as it is, and the case of ASCII letters makes no difference. -/
structure CaseFolding (toLowerCase : String → String) : Prop where
  ascii : ∀ s, (∀ c ∈ s.toList, c.toNat < 128) → toLowerCase s = lowerAscii s
  twice : ∀ s, toLowerCase (toLowerCase s) = toLowerCase s
  folds : ∀ s, toLowerCase (lowerAscii s) = toLowerCase s

/-- A label: 1 to 63 letters, digits or hyphens that neither begin nor end with a hyphen. -/
structure IsLabel (label : List Char) : Prop where
  nonempty : 1 ≤ label.length
  short : label.length ≤ 63
  chars : ∀ c ∈ label, isAlphanumeric c = true ∨ c = '-'
  first : label.head? ≠ some '-'
  last : label.getLast? ≠ some '-'

/-- **The grammar of addresses**, in normal form. -/
structure EmailGrammar (n : String) : Prop where
  short : utf16Length n ≤ 320
  oneAt : n.toList.count '@' = 1
  localPart : ∀ l d, n.toList = l ++ '@' :: d →
    l ≠ [] ∧ ∀ c ∈ l, Email.isLocalChar c = true
  domain : ∀ l d, n.toList = l ++ '@' :: d → ∀ label ∈ d.splitOn '.', IsLabel label

theorem isLabel_iff {label : List Char} : Email.isLabel label = true ↔ IsLabel label := by
  simp only [Email.isLabel, Email.isLabelChar, Bool.and_eq_true, Bool.or_eq_true,
    decide_eq_true_eq, List.all_eq_true, bne_iff_ne, beq_iff_eq]
  constructor
  · rintro ⟨⟨⟨⟨hpos, hshort⟩, hchars⟩, hfirst⟩, hlast⟩
    exact ⟨hpos, hshort, hchars, hfirst, hlast⟩
  · rintro ⟨hpos, hshort, hchars, hfirst, hlast⟩
    exact ⟨⟨⟨⟨hpos, hshort⟩, hchars⟩, hfirst⟩, hlast⟩

/-- One `@` is where a text is split. -/
theorem not_mem_of_count {l d : List Char} (h : (l ++ '@' :: d).count '@' = 1) :
    '@' ∉ l ∧ '@' ∉ d := by
  rw [List.count_append, List.count_cons_self] at h
  exact ⟨List.count_eq_zero.1 (by omega), List.count_eq_zero.1 (by omega)⟩

/-- **An address of at most 320 characters** is what the grammar describes. -/
theorem emailGrammar_iff (n : String) :
    EmailGrammar n ↔ utf16Length n ≤ 320 ∧ Email.isAddress n.toList = true := by
  rw [Email.isAddress_iff]
  constructor
  · intro h
    have hmem : '@' ∈ n.toList := List.count_pos_iff.1 (by rw [h.oneAt]; exact one_pos)
    obtain ⟨l, d, hn⟩ := List.append_of_mem hmem
    exact ⟨h.short, l, d, hn, h.localPart l d hn,
      fun label hlabel => isLabel_iff.2 (h.domain l d hn label hlabel)⟩
  · rintro ⟨hshort, l, d, hn, hlocal, hlabels⟩
    have hl := Email.at_not_mem_localPart hlocal.2
    have hd := Email.at_not_mem_domain hlabels
    have hcount : n.toList.count '@' = 1 := by
      rw [hn, List.count_append, List.count_cons_self, List.count_eq_zero.2 hl,
        List.count_eq_zero.2 hd]
    have hunique : ∀ l' d', n.toList = l' ++ '@' :: d' → l' = l ∧ d' = d := by
      intro l' d' hn'
      obtain ⟨hl', hd'⟩ := not_mem_of_count (hn' ▸ hcount)
      have hparts := congrArg (List.splitOn '@') (hn'.symm.trans hn)
      rw [Email.splitOn_at hl' hd', Email.splitOn_at hl hd] at hparts
      simpa using hparts
    refine ⟨hshort, hcount, fun l' d' hn' => ?_, fun l' d' hn' label hlabel => ?_⟩
    · obtain ⟨rfl, -⟩ := hunique l' d' hn'
      exact hlocal
    · obtain ⟨-, rfl⟩ := hunique l' d' hn'
      exact isLabel_iff.1 (hlabels label hlabel)

/-! ## The factory -/

section

variable {toLowerCase : String → String} {raw : String} {e : Email}

/-- **A text is accepted** exactly when its normal form is short enough and an address. -/
theorem create_eq_ok_iff : Email.create toLowerCase raw = .ok e ↔
    raw ≠ "" ∧ EmailGrammar (toLowerCase (trim raw)) ∧ e = ⟨toLowerCase (trim raw)⟩ := by
  rw [emailGrammar_iff, ← Email.reads_EMAIL_REGEX.accepts_iff]
  unfold Email.create
  dsimp only
  by_cases hraw : raw = ""
  · simp [hraw]
  · by_cases hlong : utf16Length (toLowerCase (trim raw)) > Email.MAX_LENGTH
    · have hnot : ¬ utf16Length (toLowerCase (trim raw)) ≤ 320 := not_le.2 hlong
      simp [hraw, hlong, hnot]
    · have hshort : utf16Length (toLowerCase (trim raw)) ≤ 320 := not_lt.1 hlong
      by_cases haccepts : Accepts Email.EMAIL_REGEX (toLowerCase (trim raw)).toList
      · simp [hraw, hlong, hshort, haccepts, eq_comm]
      · simp [hraw, hlong, haccepts]

/-! ## Normal forms -/

/-- The signs between space and DEL. -/
def isVisible (c : Char) : Prop := 33 ≤ c.toNat ∧ c.toNat < 127

theorem isVisible_of_isAlphanumeric {c : Char} (h : isAlphanumeric c = true) : isVisible c := by
  simp only [isAlphanumeric, isUpper, isLower, isDigit, Bool.or_eq_true, Bool.and_eq_true,
    decide_eq_true_eq] at h
  rcases h with (⟨hlow, hhigh⟩ | ⟨hlow, hhigh⟩) | ⟨hlow, hhigh⟩
  all_goals
    have hlow' := UInt32.le_iff_toNat_le.1 hlow
    have hhigh' := UInt32.le_iff_toNat_le.1 hhigh
    exact ⟨le_trans (by decide) hlow', lt_of_le_of_lt hhigh' (by decide)⟩

theorem isWhiteSpace_of_isVisible {c : Char} (h : isVisible c) : isWhiteSpace c = false := by
  have hall : ∀ n < 127, 33 ≤ n →
      ([0x09, 0x0A, 0x0B, 0x0C, 0x0D, 0x20, 0xA0, 0x1680, 0x2028, 0x2029, 0x202F, 0x205F, 0x3000,
        0xFEFF].contains n || (0x2000 ≤ n && n ≤ 0x200A)) = false := by
    decide
  exact hall c.toNat h.2 h.1

/-- The characters of an address. -/
theorem isVisible_of_isAddress {n : List Char} (h : Email.isAddress n = true) :
    ∀ c ∈ n, isVisible c := by
  have hsigns : ∀ c ∈ ".!#$%&'*+/=?^_`\x7b|\x7d~-".toList, 33 ≤ c.toNat ∧ c.toNat < 127 := by
    simp
  obtain ⟨l, d, rfl, ⟨-, hlocal⟩, hlabels⟩ := (Email.isAddress_iff n).1 h
  intro c hc
  simp only [List.mem_append, List.mem_cons] at hc
  rcases hc with hc | rfl | hc
  · have hlocalChar := hlocal c hc
    rw [Email.isLocalChar, Bool.or_eq_true, List.contains_iff_mem] at hlocalChar
    exact hlocalChar.elim isVisible_of_isAlphanumeric (hsigns c)
  · exact ⟨by decide, by decide⟩
  · by_cases hdot : c = '.'
    · subst hdot
      exact ⟨by decide, by decide⟩
    · obtain ⟨label, hlabel, hmem⟩ := Email.mem_of_splitOn hc hdot
      rcases (isLabel_iff.1 (hlabels label hlabel)).chars c hmem with halpha | rfl
      · exact isVisible_of_isAlphanumeric halpha
      · exact ⟨by decide, by decide⟩

/-- An address is trimmed. -/
theorem trim_of_grammar {n : String} (h : EmailGrammar n) : trim n = n :=
  trim_eq_self fun c hc =>
    isWhiteSpace_of_isVisible (isVisible_of_isAddress ((emailGrammar_iff n).1 h).2 c hc)

/-- **An address** is accepted again, as it is. -/
theorem create_value (hfold : CaseFolding toLowerCase) (h : Email.create toLowerCase raw = .ok e) :
    Email.create toLowerCase e.value = .ok e ∧ Email.fromPersistence toLowerCase e.value = e := by
  obtain ⟨-, hgrammar, rfl⟩ := create_eq_ok_iff.1 h
  have htrim := trim_of_grammar hgrammar
  have hnormal : toLowerCase (trim (toLowerCase (trim raw))) = toLowerCase (trim raw) := by
    rw [htrim, hfold.twice]
  have hne : toLowerCase (trim raw) ≠ "" := by
    intro hempty
    have hone := hgrammar.oneAt
    rw [hempty] at hone
    exact absurd hone (by decide)
  refine ⟨create_eq_ok_iff.2 ⟨hne, ?_, ?_⟩, ?_⟩
  · rwa [hnormal]
  · rw [hnormal]
  · rw [Email.fromPersistence, hnormal]

/-- **The getters** give the parts of an address. -/
theorem localPart_at_domain (h : Email.create toLowerCase raw = .ok e) :
    ∃ l d, e.localPart = some l ∧ e.domain = some d ∧ l ++ "@" ++ d = e.value := by
  obtain ⟨-, hgrammar, rfl⟩ := create_eq_ok_iff.1 h
  obtain ⟨l, d, hparts, hlocal, hlabels⟩ :=
    (Email.isAddress_iff _).1 ((emailGrammar_iff _).1 hgrammar).2
  have hsplit := Email.splitOn_at (Email.at_not_mem_localPart hlocal.2)
    (Email.at_not_mem_domain hlabels)
  refine ⟨String.ofList l, String.ofList d, ?_, ?_, ?_⟩
  · simp [Email.localPart, hparts, hsplit]
  · simp [Email.domain, hparts, hsplit]
  · refine String.toList_inj.1 ?_
    simp [hparts]

/-- **The same text**, up to the case of ASCII letters and surrounding white space, is the
same address. -/
theorem create_of_alike (hfold : CaseFolding toLowerCase) {raw' : String}
    (halike : trim (lowerAscii raw) = trim (lowerAscii raw'))
    (h : Email.create toLowerCase raw = .ok e) : Email.create toLowerCase raw' = .ok e := by
  have hnormal : toLowerCase (trim raw) = toLowerCase (trim raw') := by
    rw [← hfold.folds (trim raw), ← trim_lowerAscii, halike, trim_lowerAscii, hfold.folds]
  obtain ⟨-, hgrammar, rfl⟩ := create_eq_ok_iff.1 h
  rw [hnormal] at hgrammar ⊢
  refine create_eq_ok_iff.2 ⟨?_, hgrammar, rfl⟩
  rintro rfl
  have hempty : toLowerCase (trim "") = "" := hfold.ascii "" (by simp)
  have hone := hgrammar.oneAt
  rw [hempty] at hone
  exact absurd hone (by decide)

end

/-- **`Email.create` accepts exactly its grammar**: a text is accepted exactly when its normal
form is in it; then the value is the normal form and is made of its parts, and it is
accepted again and comes back from the database as it is.  `equals` is an equivalence, for
which the case of ASCII letters and surrounding white space make no difference. -/
theorem email_create {toLowerCase : String → String} (hfold : CaseFolding toLowerCase) :
    (∀ raw, (∃ e, Email.create toLowerCase raw = .ok e) ↔
      EmailGrammar (toLowerCase (trim raw))) ∧
    (∀ raw e, Email.create toLowerCase raw = .ok e →
      e.value = toLowerCase (trim raw) ∧
      (∃ l d, e.localPart = some l ∧ e.domain = some d ∧ l ++ "@" ++ d = e.value) ∧
      Email.create toLowerCase e.value = .ok e ∧
      Email.fromPersistence toLowerCase e.value = e) ∧
    Equivalence (fun a b : Email => a.equals b = true) ∧
    ∀ raw raw' e, trim (lowerAscii raw) = trim (lowerAscii raw') →
      Email.create toLowerCase raw = .ok e →
      ∃ e', Email.create toLowerCase raw' = .ok e' ∧ e.equals e' = true := by
  refine ⟨fun raw => ⟨?_, fun h => ?_⟩, fun raw e h => ?_, ?_, fun raw raw' e halike h => ?_⟩
  · rintro ⟨e, h⟩
    exact (create_eq_ok_iff.1 h).2.1
  · refine ⟨_, create_eq_ok_iff.2 ⟨?_, h, rfl⟩⟩
    rintro rfl
    have hempty : toLowerCase (trim "") = "" := hfold.ascii "" (by simp)
    have hone := h.oneAt
    rw [hempty] at hone
    exact absurd hone (by decide)
  · exact ⟨Email.create_eq_ok h, localPart_at_domain h, create_value hfold h⟩
  · simp only [Email.equals_iff]
    exact eq_equivalence
  · exact ⟨e, create_of_alike hfold halike h, by simp⟩

theorem caseFolding_lowerAscii : CaseFolding lowerAscii where
  ascii _ _ := rfl
  twice := lowerAscii_lowerAscii
  folds := lowerAscii_lowerAscii

/-- An address with capital letters and white space around it. -/
theorem email_create_ada :
    EmailGrammar "ada@example.com" ∧ Email.create lowerAscii " Ada@Example.com " =
      .ok ⟨"ada@example.com"⟩ := by
  have hcreate : Email.create lowerAscii " Ada@Example.com " = .ok ⟨"ada@example.com"⟩ := by
    decide +kernel
  refine ⟨?_, hcreate⟩
  have hgrammar := ((email_create caseFolding_lowerAscii).1 " Ada@Example.com ").1 ⟨_, hcreate⟩
  rwa [show lowerAscii (trim " Ada@Example.com ") = "ada@example.com" by decide +kernel] at hgrammar

end EnterpriseSystem.Identity
