import EnterpriseSystem.Common.DateUtil
import EnterpriseSystem.Base.Delimited

/-!
# The `iso` format

Is an instant read back from `formatDate(d, 'iso')`?

* `TimeZone`, `DocumentedIn` — the time zone of the process, and what `date-fns` does in it.
* `isoText` — a text in whole seconds; `isoText_inj` — what it is made of.
* `toUtcString_eq` — `toUtcString` up to the fraction.
* `parseDate_formatDate` — what is read back is off by the offset.
* `isoRoundTrips_iff` — for which instants and offsets it is the instant.
-/

namespace EnterpriseSystem.Common

open Calendar Delimited

/-! ## Local time -/

/-- The offsets from UTC of the process, in seconds. -/
structure TimeZone where
  offset : ℤ → ℤ
  bounded : ∀ t, |offset t| < 86400

/-- The instant whose UTC fields are the local fields of `t`. -/
def TimeZone.toLocal (zone : TimeZone) (t : ℤ) : ℤ := t + zone.offset t * 1000

/-- `getUTCFullYear()`. -/
def utcYear (t : ℤ) : ℤ := (civil (t / 86400000)).1

/-- How `yyyy` counts: the year before 1 is 1 BC. -/
def yearOfEra (year : ℤ) : ℕ := if 0 < year then year.toNat else (1 - year).toNat

/-! ## Texts in whole seconds -/

/-- What stands in front of the `Z`. -/
def isoChars (year : ℕ) (t : ℤ) : List Char :=
  let date := (civil (t / 86400000)).2
  let rest := (t % 86400000).toNat
  (padded 4 year).toList ++ '-' :: ((padded 2 date.1).toList ++ '-' :: ((padded 2 date.2).toList ++
    'T' :: ((padded 2 (rest / 3600000)).toList ++ ':' :: ((padded 2 (rest / 60000 % 60)).toList ++
      ':' :: (padded 2 (rest / 1000 % 60)).toList))))

/-- `yyyy-MM-dd'T'HH:mm:ss'Z'`, with this year. -/
def isoText (year : ℕ) (t : ℤ) : String := String.ofList (isoChars year t ++ ['Z'])

example : isoText 2024 1709210096789 = "2024-02-29T12:34:56Z" := by decide +kernel

/-- **A process in this zone**: `format` prints the local fields and quoted text literally, and
`parseISO` takes a final `Z` for UTC. -/
structure DocumentedIn (zone : TimeZone) (lib : DateFns) : Prop where
  format_iso : ∀ t : ℤ, |(t : Millis)| ≤ maxDate → lib.format t "yyyy-MM-dd'T'HH:mm:ss'Z'" =
    .ok (isoText (yearOfEra (utcYear (zone.toLocal t))) (zone.toLocal t))
  parseISO_utc : ∀ t : ℤ, 1000 ∣ t → 0 ≤ utcYear t → utcYear t ≤ 9999 →
    lib.parseISO (isoText (utcYear t).toNat t) = some t

theorem not_mem_padded {width n : ℕ} {c : Char} (hc : c.isDigit = false) :
    c ∉ (padded width n).toList := by
  intro hmem
  rw [isDigit_of_mem_padded hmem] at hc
  exact nomatch hc

/-- **Equal texts** have the same year, and the same date and time of day. -/
theorem isoText_inj {year year' : ℕ} {t t' : ℤ} (h : isoText year t = isoText year' t') :
    year = year' ∧ (civil (t / 86400000)).2 = (civil (t' / 86400000)).2 ∧
      t % 86400000 / 1000 = t' % 86400000 / 1000 := by
  have hchars : isoChars year t = isoChars year' t' :=
    List.append_cancel_right (String.ofList_inj.1 h)
  obtain ⟨hyear, h⟩ := eq_of_first (not_mem_padded rfl) (not_mem_padded rfl) hchars
  obtain ⟨hmonth, h⟩ := eq_of_first (not_mem_padded rfl) (not_mem_padded rfl) h
  obtain ⟨hday, h⟩ := eq_of_first (not_mem_padded rfl) (not_mem_padded rfl) h
  obtain ⟨hhours, h⟩ := eq_of_first (not_mem_padded rfl) (not_mem_padded rfl) h
  obtain ⟨hminutes, hseconds⟩ := eq_of_first (not_mem_padded rfl) (not_mem_padded rfl) h
  have hhours := padded_inj hhours
  have hminutes := padded_inj hminutes
  have hseconds := padded_inj hseconds
  exact ⟨padded_inj hyear, Prod.ext (padded_inj hmonth) (padded_inj hday), by omega⟩

/-- Milliseconds are not printed. -/
theorem isoText_floor (year : ℕ) (t : ℤ) : isoText year (t / 1000 * 1000) = isoText year t := by
  have hday : t / 1000 * 1000 / 86400000 = t / 86400000 := by omega
  have hhours : (t / 1000 * 1000 % 86400000).toNat / 3600000 =
      (t % 86400000).toNat / 3600000 := by omega
  have hminutes : (t / 1000 * 1000 % 86400000).toNat / 60000 = (t % 86400000).toNat / 60000 := by
    omega
  have hseconds : (t / 1000 * 1000 % 86400000).toNat / 1000 = (t % 86400000).toNat / 1000 := by
    omega
  simp only [isoText, isoChars, hday, hhours, hminutes, hseconds]

theorem utcYear_floor (t : ℤ) : utcYear (t / 1000 * 1000) = utcYear t := by
  have hday : t / 1000 * 1000 / 86400000 = t / 86400000 := by omega
  rw [utcYear, hday, utcYear]

/-! ## `toUtcString` -/

/-- The text of `toISOString` without the fraction of the seconds. -/
def withoutFraction (text : String) : String :=
  String.ofList (text.toList.takeWhile (· != '.') ++ ['Z'])

/-- An instant of the years 0 to 9999 is a date. -/
theorem abs_le_maxDate {d : ℤ} (hyear : 0 ≤ utcYear d) (hyear' : utcYear d ≤ 9999) :
    |(d : Millis)| ≤ maxDate := by
  obtain ⟨hdays, hmonth, hday, -⟩ := days_civil (d / 86400000)
  rw [utcYear] at hyear hyear'
  have hbound : |d| ≤ 8640000000000000 := by
    rw [abs_le]
    unfold days at hdays
    dsimp only at hdays
    split_ifs at hdays <;> omega
  rw [maxDate]
  exact_mod_cast hbound

/-- `toISOString` prints a fraction of three digits as well. -/
theorem toISOString_eq {d : ℤ} (hyear : 0 ≤ utcYear d) (hyear' : utcYear d ≤ 9999) :
    toISOString d = some (String.ofList (isoChars (utcYear d).toNat d ++
      '.' :: ((padded 3 ((d % 86400000).toNat % 1000)).toList ++ ['Z']))) := by
  have hiso : isoYear (utcYear d) = padded 4 (utcYear d).toNat := if_pos ⟨hyear, hyear'⟩
  rw [toISOString_intCast (abs_le_maxDate hyear hyear'), ← utcYear, hiso]
  refine congrArg some (String.toList_inj.1 ?_)
  simp [isoChars, afterYear]

/-- **The UTC text**, up to the fraction. -/
theorem toUtcString_eq (lib : DateFns) {d : ℤ} (hyear : 0 ≤ utcYear d) (hyear' : utcYear d ≤ 9999) :
    ∃ text, toUtcString lib (.date (some d)) = .ok text ∧
      withoutFraction text = isoText (utcYear d).toNat d := by
  have hutc : toUtcString lib (.date (some d)) = .ok (String.ofList (isoChars (utcYear d).toNat d ++
      '.' :: ((padded 3 ((d % 86400000).toNat % 1000)).toList ++ ['Z']))) := by
    simp only [toUtcString, DateArg.toDate, toISOString_eq hyear hyear']
  refine ⟨_, hutc, ?_⟩
  have hpoint : ∀ c ∈ isoChars (utcYear d).toNat d, (c != '.') = true := by
    intro c hc
    rw [bne_iff_ne]
    rintro rfl
    simp [isoChars, not_mem_padded] at hc
  rw [withoutFraction, String.toList_ofList, List.takeWhile_append_of_pos hpoint]
  simp [isoText]

/-! ## Reading back -/

section

variable {zone : TimeZone} {lib : DateFns} {d : ℤ}

/-- **What is printed** is the local time. -/
theorem formatDate_iso (h : DocumentedIn zone lib) (hd : |(d : Millis)| ≤ maxDate) :
    formatDate lib (.date (some d)) "iso" =
      .ok (isoText (yearOfEra (utcYear (zone.toLocal d))) (zone.toLocal d)) := by
  rw [← h.format_iso d hd]
  rfl

/-- A text with a final `Z` is read as UTC. -/
theorem parseDate_isoText (h : DocumentedIn zone lib) {t : ℤ} (hyear : 1 ≤ utcYear t)
    (hyear' : utcYear t ≤ 9999) :
    parseDate lib (isoText (yearOfEra (utcYear t)) t) = some (t / 1000 * 1000) := by
  have hera : yearOfEra (utcYear t) = (utcYear (t / 1000 * 1000)).toNat := by
    rw [utcYear_floor]
    exact if_pos (by omega)
  rw [hera, ← isoText_floor]
  refine h.parseISO_utc _ (Int.dvd_mul_left _ _) ?_ ?_ <;> rw [utcYear_floor] <;> omega

/-- **What is read back** is off by the offset. -/
theorem parseDate_formatDate (h : DocumentedIn zone lib) (hd : |(d : Millis)| ≤ maxDate)
    (hyear : 1 ≤ utcYear (zone.toLocal d)) (hyear' : utcYear (zone.toLocal d) ≤ 9999) :
    ∃ text, formatDate lib (.date (some d)) "iso" = .ok text ∧
      parseDate lib text = some (d / 1000 * 1000 + zone.offset d * 1000) := by
  refine ⟨_, formatDate_iso h hd, ?_⟩
  rw [parseDate_isoText h hyear hyear', TimeZone.toLocal, Int.add_mul_ediv_right _ _ (by omega),
    add_mul]

/-- **The round trip**: the text is read back as the instant in whole seconds, and is that of
`toUtcString` up to the fraction. -/
def IsoRoundTrips (lib : DateFns) (d : ℤ) : Prop :=
  ∃ text utc, formatDate lib (.date (some d)) "iso" = .ok text ∧
    toUtcString lib (.date (some d)) = .ok utc ∧
    parseDate lib text = some (d / 1000 * 1000) ∧ text = withoutFraction utc

/-- A local time that prints like the UTC time is the UTC time, in a year from 1 on. -/
theorem offset_eq_zero_of_isoText_eq (hyear : 0 ≤ utcYear d)
    (heq : isoText (yearOfEra (utcYear (zone.toLocal d))) (zone.toLocal d) =
      isoText (utcYear d).toNat d) :
    zone.offset d = 0 ∧ 1 ≤ utcYear d := by
  obtain ⟨hprinted, hdate, htime⟩ := isoText_inj heq
  obtain ⟨hlocal, -⟩ := days_civil (zone.toLocal d / 86400000)
  obtain ⟨hutc, -⟩ := days_civil (d / 86400000)
  have hbound := abs_lt.1 (zone.bounded d)
  rw [hdate, ← utcYear] at hlocal
  rw [← utcYear] at hutc
  have hshift : zone.toLocal d = d + zone.offset d * 1000 := rfl
  by_cases hera : 0 < utcYear (zone.toLocal d)
  · rw [yearOfEra, if_pos hera] at hprinted
    have hsame : utcYear (zone.toLocal d) = utcYear d := by omega
    rw [hsame] at hlocal
    omega
  · -- the year would be printed as one after the epoch, and the dates lie a year apart
    rw [yearOfEra, if_neg hera] at hprinted
    have hlt : utcYear (zone.toLocal d) < utcYear d := by omega
    have hfar := days_le_of_year_lt hlt (civil (d / 86400000)).2.1 (civil (d / 86400000)).2.2
    omega

theorem IsoRoundTrips.offset_eq_zero (hround : IsoRoundTrips lib d) (h : DocumentedIn zone lib)
    (hyear : 0 ≤ utcYear d) (hyear' : utcYear d ≤ 9999) : zone.offset d = 0 ∧ 1 ≤ utcYear d := by
  obtain ⟨text, utc, htext, hutc, -, heq⟩ := hround
  obtain ⟨utc', hutc', hfraction⟩ := toUtcString_eq lib hyear hyear'
  obtain rfl := Except.ok.inj ((formatDate_iso h (abs_le_maxDate hyear hyear')).symm.trans htext)
  obtain rfl := Except.ok.inj (hutc.symm.trans hutc')
  exact offset_eq_zero_of_isoText_eq hyear (heq.trans hfraction)

/-- **The `iso` format round-trips** exactly where the process is in UTC, from year 1 on. -/
theorem isoRoundTrips_iff (h : DocumentedIn zone lib) (hyear : 0 ≤ utcYear d)
    (hyear' : utcYear d ≤ 9999) :
    IsoRoundTrips lib d ↔ zone.offset d = 0 ∧ 1 ≤ utcYear d := by
  refine ⟨fun hround => hround.offset_eq_zero h hyear hyear', ?_⟩
  rintro ⟨hoffset, hpos⟩
  obtain ⟨utc, hutc, hfraction⟩ := toUtcString_eq lib hyear hyear'
  have hlocal : zone.toLocal d = d := by simp [TimeZone.toLocal, hoffset]
  have hformat := formatDate_iso h (abs_le_maxDate hyear hyear')
  rw [hlocal] at hformat
  refine ⟨_, utc, hformat, hutc, parseDate_isoText h hpos hyear', ?_⟩
  rw [hfraction, yearOfEra, if_pos (by omega)]

end

/-! ## A process an hour ahead of UTC -/

/-- The zone with this offset, at all times. -/
def fixedZone (seconds : ℤ) (h : |seconds| < 86400) : TimeZone := ⟨fun _ => seconds, fun _ => h⟩

/-- The two functions, for the `iso` pattern and for texts in whole seconds with a final `Z`. -/
def isoDateFns (zone : TimeZone) : DateFns where
  parseISO text := parseISOString (String.ofList (text.toList.dropLast ++ ['.', '0', '0', '0', 'Z']))
  format t pattern :=
    if pattern = "yyyy-MM-dd'T'HH:mm:ss'Z'" then
      .ok (isoText (yearOfEra (utcYear (zone.toLocal t))) (zone.toLocal t))
    else .error s!"Use of an unknown pattern: {pattern}"

theorem isoDateFns_documented (zone : TimeZone) : DocumentedIn zone (isoDateFns zone) where
  format_iso _ _ := by simp [isoDateFns]
  parseISO_utc t hseconds hyear hyear' := by
    have hmillis : (t % 86400000).toNat % 1000 = 0 := by omega
    have htext := toISOString_eq hyear hyear'
    rw [hmillis] at htext
    have hread := parseISOString_toISOString htext
    have hzero : (padded 3 0).toList = ['0', '0', '0'] := by decide +kernel
    rw [hzero] at hread
    simpa [isoDateFns, isoText] using hread

theorem isoRoundTrips_utc : IsoRoundTrips (isoDateFns (fixedZone 0 (by decide))) 1709210096789 :=
  (isoRoundTrips_iff (isoDateFns_documented _) (by decide +kernel) (by decide +kernel)).2
    ⟨rfl, by decide +kernel⟩

theorem not_isoRoundTrips : ¬ ∀ (zone : TimeZone) (lib : DateFns) (d : ℤ), DocumentedIn zone lib →
    0 ≤ utcYear d → utcYear d ≤ 9999 → IsoRoundTrips lib d := by
  intro h
  have hround := h (fixedZone 3600 (by decide)) _ 1709210096789 (isoDateFns_documented _)
    (by decide +kernel) (by decide +kernel)
  exact absurd (hround.offset_eq_zero (isoDateFns_documented _) (by decide +kernel)
    (by decide +kernel)).1 (by decide)

end EnterpriseSystem.Common
