import Mathlib

/-!
# Dates and their texts

Dates as numbers of milliseconds since 1970-01-01, and the texts of ISO 8601 that
`toISOString` writes and `Date.parse` reads.

* `civil`, `days` — the year, month and day of a day, and back; `days_civil`.
* `toISOString`, `parseISOString` — the text of a date, and back.
* `parseISOString_toISOString` — a date that has a text is read back from it.
-/

namespace Calendar

/-! ## Writing -/

/-- A number of milliseconds. -/
abbrev Millis : Type := ℚ

/-- The times a `Date` can hold. -/
def maxDate : Millis := 8640000000000000

/-- `n` in decimal, with at least `width` digits. -/
def padded (width n : ℕ) : String :=
  let digits := toString n
  String.ofList (List.replicate (width - digits.length) '0') ++ digits

/-- The year, month and day of a day counted from 1970-01-01. -/
def civil (days : ℤ) : ℤ × ℕ × ℕ :=
  let z := days + 719468
  let era := z / 146097
  let doe := (z % 146097).toNat
  let yoe := (doe - doe / 1460 + doe / 36524 - doe / 146096) / 365
  let doy := doe - (365 * yoe + yoe / 4 - yoe / 100)
  let mp := (5 * doy + 2) / 153
  let day := doy - (153 * mp + 2) / 5 + 1
  let month := if mp < 10 then mp + 3 else mp - 9
  (yoe + era * 400 + (if month ≤ 2 then 1 else 0), month, day)

/-- A year of an ISO date: four digits, or six with a sign. -/
def isoYear (year : ℤ) : String :=
  if 0 ≤ year ∧ year ≤ 9999 then padded 4 year.toNat
  else (if year < 0 then "-" else "+") ++ padded 6 year.natAbs

/-- `new Date(time).toISOString()`, which throws for what is not a date. -/
def toISOString (time : Millis) : Option String :=
  if maxDate < |time| then none
  else
    let ms := if 0 ≤ time then ⌊time⌋ else ⌈time⌉
    let (year, month, day) := civil (ms / 86400000)
    let rest := (ms % 86400000).toNat
    let hours := padded 2 (rest / 3600000)
    let minutes := padded 2 (rest / 60000 % 60)
    let seconds := padded 2 (rest / 1000 % 60)
    let millis := padded 3 (rest % 1000)
    some (isoYear year ++ "-" ++ padded 2 month ++ "-" ++ padded 2 day ++ "T" ++ hours ++ ":" ++
      minutes ++ ":" ++ seconds ++ "." ++ millis ++ "Z")

theorem toISOString_eq_none {time : Millis} : toISOString time = none ↔ maxDate < |time| := by
  unfold toISOString
  split_ifs with h
  · exact iff_of_true rfl h
  · exact iff_of_false nofun h

example : toISOString 1709210096789 = some "2024-02-29T12:34:56.789Z" := by decide +kernel

/-! ## Reading -/

/-- The days from 1970-01-01 to a date. -/
def days (year : ℤ) (month day : ℕ) : ℤ :=
  let y := if month ≤ 2 then year - 1 else year
  let yoe := (y % 400).toNat
  let mp := if month ≤ 2 then month + 9 else month - 3
  let doy := (153 * mp + 2) / 5 + day - 1
  y / 400 * 146097 + (365 * yoe + yoe / 4 - yoe / 100 + doy : ℕ) - 719468

/-- A number of that many digits with the character behind it, and what follows. -/
def field (width : ℕ) (stop : Char) (cs : List Char) : Option (ℕ × List Char) :=
  if (cs.take width).length = width ∧ (cs.take width).all Char.isDigit then
    match cs.drop width with
    | c :: rest => if c = stop then some (Nat.ofDigitChars 10 (cs.take width) 0, rest) else none
    | [] => none
  else none

/-- A text whose year has that sign and that many digits. -/
def parseFrom (sign : ℤ) (width : ℕ) (cs : List Char) : Option ℤ := do
  let (year, cs) ← field width '-' cs
  let (month, cs) ← field 2 '-' cs
  let (day, cs) ← field 2 'T' cs
  let (hours, cs) ← field 2 ':' cs
  let (minutes, cs) ← field 2 ':' cs
  let (seconds, cs) ← field 2 '.' cs
  let (millis, cs) ← field 3 'Z' cs
  let time := days (sign * year) month day * 86400000 +
    (hours * 3600000 + minutes * 60000 + seconds * 1000 + millis : ℕ)
  if cs = [] ∧ (1 ≤ month ∧ month ≤ 12) ∧ (1 ≤ day ∧ day ≤ 31) ∧
      (hours ≤ 23 ∧ minutes ≤ 59 ∧ seconds ≤ 59) ∧ (sign < 0 → year ≠ 0) ∧
      |(time : Millis)| ≤ maxDate then
    return time
  else none

/-- `Date.parse(text)` of a text in the form that `toISOString` writes, `none` for
`NaN`. -/
def parseISOString (text : String) : Option ℤ :=
  match text.toList with
  | '+' :: cs => parseFrom 1 6 cs
  | '-' :: cs => parseFrom (-1) 6 cs
  | cs => parseFrom 1 4 cs

example : parseISOString "2024-02-29T12:34:56.789Z" = some 1709210096789 := by decide +kernel

/-! ## Days -/

/-- The year of a day within an era of four hundred years. -/
theorem yearOfEra_bounds {doe yoe : ℕ} (hdoe : doe < 146097)
    (hyoe : yoe = (doe - doe / 1460 + doe / 36524 - doe / 146096) / 365) :
    yoe < 400 ∧ 365 * yoe + yoe / 4 - yoe / 100 ≤ doe ∧
      doe - (365 * yoe + yoe / 4 - yoe / 100) ≤ 365 := by
  have hcentury : doe / 36524 = 0 ∨ doe / 36524 = 1 ∨ doe / 36524 = 2 ∨ doe / 36524 = 3 ∨
      doe = 146096 := by
    omega
  rcases hcentury with hc | hc | hc | hc | rfl
  · have hyear : yoe / 100 = 0 := by omega
    exact ⟨by omega, by omega, by omega⟩
  · have hyear : yoe / 100 = 1 := by omega
    exact ⟨by omega, by omega, by omega⟩
  · have hyear : yoe / 100 = 2 := by omega
    exact ⟨by omega, by omega, by omega⟩
  · have hyear : yoe / 100 = 3 := by omega
    exact ⟨by omega, by omega, by omega⟩
  · omega

/-- **A day** is the day of its date; the date has a month and a day of the month,
and of the days that dates can hold the year has six digits at most. -/
theorem days_civil (z : ℤ) :
    days (civil z).1 (civil z).2.1 (civil z).2.2 = z ∧
      (1 ≤ (civil z).2.1 ∧ (civil z).2.1 ≤ 12) ∧ (1 ≤ (civil z).2.2 ∧ (civil z).2.2 ≤ 31) ∧
      (|z| ≤ 100000000 → |(civil z).1| < 1000000) := by
  obtain ⟨doe, hdoe⟩ : ∃ doe, doe = ((z + 719468) % 146097).toNat := ⟨_, rfl⟩
  obtain ⟨era, hera⟩ : ∃ era, era = (z + 719468) / 146097 := ⟨_, rfl⟩
  obtain ⟨yoe, hyoe⟩ : ∃ yoe, yoe = (doe - doe / 1460 + doe / 36524 - doe / 146096) / 365 :=
    ⟨_, rfl⟩
  obtain ⟨doy, hdoy⟩ : ∃ doy, doy = doe - (365 * yoe + yoe / 4 - yoe / 100) := ⟨_, rfl⟩
  have hz : z = era * 146097 + doe - 719468 := by omega
  have hrange : doe < 146097 := by omega
  obtain ⟨hyear, hle, hday⟩ := yearOfEra_bounds hrange hyoe
  have hcivil : civil z = (yoe + era * 400 + (if (5 * doy + 2) / 153 < 10 then 0 else 1),
      if (5 * doy + 2) / 153 < 10 then (5 * doy + 2) / 153 + 3 else (5 * doy + 2) / 153 - 9,
      doy - (153 * ((5 * doy + 2) / 153) + 2) / 5 + 1) := by
    unfold civil
    dsimp only
    rw [← hdoe, ← hera, ← hyoe, ← hdoy]
    split_ifs <;> first | rfl | omega
  rw [hcivil]
  dsimp only
  by_cases hmonth : (5 * doy + 2) / 153 < 10
  · simp only [if_pos hmonth]
    refine ⟨?_, by omega, by omega, fun h => by rw [abs_le] at h; rw [abs_lt]; omega⟩
    unfold days
    rw [if_neg (by omega), if_neg (by omega)]
    have hera' : (yoe + era * 400 + 0 : ℤ) / 400 = era := by omega
    have hyoe' : ((yoe + era * 400 + 0 : ℤ) % 400).toNat = yoe := by omega
    dsimp only
    rw [hera', hyoe']
    omega
  · simp only [if_neg hmonth]
    refine ⟨?_, by omega, by omega, fun h => by rw [abs_le] at h; rw [abs_lt]; omega⟩
    unfold days
    rw [if_pos (by omega), if_pos (by omega)]
    have hera' : (yoe + era * 400 + 1 - 1 : ℤ) / 400 = era := by omega
    have hyoe' : ((yoe + era * 400 + 1 - 1 : ℤ) % 400).toNat = yoe := by omega
    dsimp only
    rw [hera', hyoe']
    omega

/-- A later year begins at least 365 days later. -/
theorem yearStart_le {y z : ℤ} {yoe yoe' : ℕ} (h : y < z) (hyoe : yoe = (y % 400).toNat)
    (hyoe' : yoe' = (z % 400).toNat) :
    y / 400 * 146097 + (365 * yoe + yoe / 4 - yoe / 100 : ℕ) + 365 ≤
      z / 400 * 146097 + (365 * yoe' + yoe' / 4 - yoe' / 100 : ℕ) := by
  by_cases hera : y / 400 = z / 400
  · have hlt : yoe + 1 ≤ yoe' := by omega
    have hfour : yoe / 4 ≤ yoe' / 4 := by omega
    have hcentury : yoe / 100 = yoe / 4 / 25 ∧ yoe' / 100 = yoe' / 4 / 25 := by omega
    omega
  · have hlt : y / 400 + 1 ≤ z / 400 := by omega
    have hyear : yoe ≤ 399 := by omega
    omega

/-- **A day of a later year** is at least 365 days later than that day of an earlier one. -/
theorem days_le_of_year_lt {y z : ℤ} (h : y < z) (month day : ℕ) :
    days y month day + 365 ≤ days z month day := by
  have hle := yearStart_le (y := if month ≤ 2 then y - 1 else y)
    (z := if month ≤ 2 then z - 1 else z) (by split_ifs <;> omega) rfl rfl
  unfold days
  dsimp only
  omega

/-! ## Texts -/

section

variable {rest : List Char}

theorem toList_padded (width n : ℕ) : (padded width n).toList =
    List.replicate (width - (Nat.toDigits 10 n).length) '0' ++ Nat.toDigits 10 n := by
  simp [padded, Nat.repr_eq_ofList_toDigits]

theorem isDigit_of_mem_padded {width n : ℕ} {c : Char} (h : c ∈ (padded width n).toList) :
    c.isDigit = true := by
  rw [toList_padded] at h
  rcases List.mem_append.1 h with h | h
  · rw [List.eq_of_mem_replicate h]
    rfl
  · exact Nat.isDigit_of_mem_toDigits (by omega) (by omega) h

theorem ofDigitChars_padded (width n : ℕ) : Nat.ofDigitChars 10 (padded width n).toList 0 = n := by
  rw [toList_padded, Nat.ofDigitChars_append, Nat.ofDigitChars_replicate_zero, Nat.mul_zero,
    Nat.ofDigitChars_ten_toDigits]

theorem padded_inj {width m n : ℕ} (h : (padded width m).toList = (padded width n).toList) :
    m = n := by
  rw [← ofDigitChars_padded width m, h, ofDigitChars_padded]

/-- A number that was padded is read back. -/
theorem field_padded {width n : ℕ} (hwidth : 0 < width) (hn : n < 10 ^ width) (stop : Char) :
    field width stop ((padded width n).toList ++ stop :: rest) = some (n, rest) := by
  have hdigits : (Nat.toDigits 10 n).length ≤ width :=
    (Nat.length_toDigits_le_iff (by omega) hwidth).2 hn
  have hlength : (padded width n).toList.length = width := by
    rw [toList_padded, List.length_append, List.length_replicate]
    omega
  have hall : (padded width n).toList.all Char.isDigit = true :=
    List.all_eq_true.2 fun c hc => isDigit_of_mem_padded hc
  have htake : ((padded width n).toList ++ stop :: rest).take width = (padded width n).toList :=
    List.take_left' hlength
  have hdrop : ((padded width n).toList ++ stop :: rest).drop width = stop :: rest :=
    List.drop_left' hlength
  unfold field
  rw [htake, hdrop, if_pos ⟨hlength, hall⟩]
  simp only [if_true, ofDigitChars_padded]

/-- The first digit of a padded number is no sign. -/
theorem padded_head {width n : ℕ} {c : Char} {cs : List Char}
    (h : (padded width n).toList = c :: cs) : c ≠ '+' ∧ c ≠ '-' := by
  have hc : c.isDigit = true := isDigit_of_mem_padded (by rw [h]; exact List.mem_cons_self)
  constructor <;> rintro rfl <;> exact absurd hc (by decide)

/-- What `toISOString` writes behind the year. -/
def afterYear (month day rest : ℕ) : List Char :=
  '-' :: ((padded 2 month).toList ++ '-' :: ((padded 2 day).toList ++ 'T' ::
    ((padded 2 (rest / 3600000)).toList ++ ':' :: ((padded 2 (rest / 60000 % 60)).toList ++ ':' ::
      ((padded 2 (rest / 1000 % 60)).toList ++ '.' :: ((padded 3 (rest % 1000)).toList ++ ['Z']))))))

/-- The text of a date in whole milliseconds. -/
theorem toISOString_intCast {time : ℤ} (h : |(time : Millis)| ≤ maxDate) :
    toISOString time = some (isoYear (civil (time / 86400000)).1 ++ String.ofList
      (afterYear (civil (time / 86400000)).2.1 (civil (time / 86400000)).2.2
        (time % 86400000).toNat)) := by
  have hms : (if 0 ≤ (time : Millis) then ⌊(time : Millis)⌋ else ⌈(time : Millis)⌉) = time := by
    rw [Int.floor_intCast, Int.ceil_intCast, ite_self]
  unfold toISOString
  rw [if_neg (not_lt.2 h)]
  dsimp only
  rw [hms]
  refine congrArg some (String.toList_inj.1 ?_)
  simp [afterYear]

/-- **What follows the year** is read back. -/
theorem parseFrom_afterYear (sign : ℤ) (width year : ℕ) {time : ℤ} (hwidth : 0 < width)
    (hyear : year < 10 ^ width) (hsign : sign < 0 → year ≠ 0)
    (hcivil : (civil (time / 86400000)).1 = sign * year) (htime : |(time : Millis)| ≤ maxDate) :
    parseFrom sign width ((padded width year).toList ++
      afterYear (civil (time / 86400000)).2.1 (civil (time / 86400000)).2.2
        (time % 86400000).toNat) = some time := by
  obtain ⟨hdays, hmonth, hday, -⟩ := days_civil (time / 86400000)
  rw [hcivil] at hdays
  generalize (civil (time / 86400000)).2.1 = month at *
  generalize (civil (time / 86400000)).2.2 = day at *
  obtain ⟨rest, hrest⟩ : ∃ rest, rest = (time % 86400000).toNat := ⟨_, rfl⟩
  have hsum : days (sign * year) month day * 86400000 +
      (rest / 3600000 * 3600000 + rest / 60000 % 60 * 60000 + rest / 1000 % 60 * 1000 +
        rest % 1000 : ℕ) = time := by
    rw [hdays]
    omega
  rw [← hrest]
  unfold parseFrom afterYear
  simp only [field_padded hwidth hyear, field_padded two_pos (show month < 10 ^ 2 by omega),
    field_padded two_pos (show day < 10 ^ 2 by omega),
    field_padded two_pos (show rest / 3600000 < 10 ^ 2 by omega),
    field_padded two_pos (show rest / 60000 % 60 < 10 ^ 2 by omega),
    field_padded two_pos (show rest / 1000 % 60 < 10 ^ 2 by omega),
    field_padded three_pos (show rest % 1000 < 10 ^ 3 by omega),
    Option.bind_eq_bind, Option.bind_some]
  rw [hsum]
  exact if_pos ⟨trivial, hmonth, hday, by omega, hsign, htime⟩

/-- A text that begins with a padded number has no sign. -/
theorem parseISOString_padded {width n : ℕ} (cs : List Char) :
    parseISOString (String.ofList ((padded (width + 1) n).toList ++ cs)) =
      parseFrom 1 4 ((padded (width + 1) n).toList ++ cs) := by
  obtain ⟨c, digits, hc⟩ : ∃ c digits, (padded (width + 1) n).toList = c :: digits := by
    refine List.exists_cons_of_ne_nil ?_
    rw [toList_padded]
    simp [Nat.toDigits_ne_nil]
  obtain ⟨hplus, hminus⟩ := padded_head hc
  rw [hc, List.cons_append]
  unfold parseISOString
  rw [String.toList_ofList]
  split
  · rename_i heq
    exact absurd (List.cons.inj heq).1 hplus
  · rename_i heq
    exact absurd (List.cons.inj heq).1 hminus
  · rfl

/-- **A date** is read back from its text. -/
theorem parseISOString_toISOString {time : ℤ} {text : String}
    (h : toISOString time = some text) : parseISOString text = some time := by
  have htime : |(time : Millis)| ≤ maxDate := by
    by_contra hlate
    exact nomatch h.symm.trans (toISOString_eq_none.2 (not_le.1 hlate))
  rw [toISOString_intCast htime] at h
  obtain rfl := Option.some.inj h
  obtain ⟨-, -, -, hbound⟩ := days_civil (time / 86400000)
  have hyear : |(civil (time / 86400000)).1| < 1000000 := by
    refine hbound ?_
    have htime' : |time| ≤ 8640000000000000 := by
      have hcast : |(time : ℚ)| ≤ ((8640000000000000 : ℤ) : ℚ) := by
        simpa [maxDate] using htime
      exact_mod_cast hcast
    rw [abs_le] at htime' ⊢
    omega
  rw [abs_lt] at hyear
  unfold isoYear
  split_ifs with hfour hneg
  · rw [← String.ofList_toList (s := padded 4 _), ← String.ofList_append, parseISOString_padded]
    exact parseFrom_afterYear 1 4 _ (by omega) (by omega) (by omega) (by omega) htime
  · have hread := parseFrom_afterYear (-1) 6 (civil (time / 86400000)).1.natAbs
      (by omega) (by omega) (by omega) (by omega) htime
    simpa [parseISOString] using hread
  · have hread := parseFrom_afterYear 1 6 (civil (time / 86400000)).1.natAbs
      (by omega) (by omega) (by omega) (by omega) htime
    simpa [parseISOString] using hread

end

end Calendar
