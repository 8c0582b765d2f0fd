import EnterpriseSystem.Common.DateUtil

/-!
# Durations

`durationBetween` and `formatDuration` of `src/common/utils/date.util.ts`.

* `Duration`, `durationBetween`, `formatDuration` — the two functions.
* `duration_eq` — the parts are the quotients and remainders of one number.
* `amount`, `amount_parts` — the number in front of a unit is read back from the parts.
* `splitOn_formatDuration`, `eq_of_formatDuration_eq` — so are the parts from the text, and the
  text tells them apart.
* `durations` — durations decompose exactly and print without loss.
-/

namespace EnterpriseSystem.Common

/-! ## The functions -/

/-- `Duration`. -/
structure Duration where
  days : ℕ
  hours : ℕ
  minutes : ℕ
  seconds : ℕ
  totalSeconds : ℕ
  totalMinutes : ℕ
  totalHours : ℕ
  totalDays : ℕ
  deriving DecidableEq

/-- `differenceInSeconds(later, earlier)`, which truncates. -/
def differenceInSeconds (later earlier : ℤ) : ℤ := (later - earlier).tdiv 1000

/-- `differenceInMinutes(later, earlier)`. -/
def differenceInMinutes (later earlier : ℤ) : ℤ := (later - earlier).tdiv 60000

/-- `differenceInHours(later, earlier)`. -/
def differenceInHours (later earlier : ℤ) : ℤ := (later - earlier).tdiv 3600000

/-- `differenceInDays(later, earlier)`, where the offset is constant. -/
def differenceInDays (later earlier : ℤ) : ℤ := (later - earlier).tdiv 86400000

/-- What `durationBetween` computes of two instants. -/
def duration (s e : ℤ) : Duration :=
  let totalSeconds := differenceInSeconds e s
  let days := differenceInDays e s
  let hours := (differenceInHours e s).tmod 24
  let minutes := (differenceInMinutes e s).tmod 60
  let seconds := totalSeconds.tmod 60
  { days := days.natAbs
    hours := hours.natAbs
    minutes := minutes.natAbs
    seconds := seconds.natAbs
    totalSeconds := totalSeconds.natAbs
    totalMinutes := (differenceInMinutes e s).natAbs
    totalHours := (differenceInHours e s).natAbs
    totalDays := days.natAbs }

/-- `durationBetween(start, end)`. -/
def durationBetween (parseISO : String → Option ℤ) (start stop : DateArg) :
    Except String Duration :=
  match start.toDate parseISO, stop.toDate parseISO with
  | some s, some e => .ok (duration s e)
  | _, _ => .error "Invalid date(s) provided for duration calculation"

/-- The parts that `formatDuration` joins. -/
def durationParts (d : Duration) : List String :=
  let parts := (if d.days > 0 then [s!"{d.days}d"] else []) ++
    (if d.hours > 0 then [s!"{d.hours}h"] else []) ++
    (if d.minutes > 0 then [s!"{d.minutes}m"] else [])
  parts ++ if parts.length = 0 ∨ d.seconds > 0 then [s!"{d.seconds}s"] else []

/-- `formatDuration`. -/
def formatDuration (d : Duration) : String := " ".intercalate (durationParts d)

/-! ## One number -/

/-- **The parts** are of the milliseconds between the instants. -/
theorem duration_eq (s e : ℤ) : duration s e =
    let between := (e - s).natAbs
    { days := between / 86400000
      hours := between / 3600000 % 24
      minutes := between / 60000 % 60
      seconds := between / 1000 % 60
      totalSeconds := between / 1000
      totalMinutes := between / 60000
      totalHours := between / 3600000
      totalDays := between / 86400000 } := by
  simp [duration, differenceInSeconds, differenceInMinutes, differenceInHours, differenceInDays,
    Int.natAbs_tmod, Int.natAbs_tdiv]
  exact ⟨rfl, rfl, rfl, rfl, rfl, rfl, rfl, rfl⟩

theorem duration_comm (s e : ℤ) : duration s e = duration e s := by
  rw [duration_eq, duration_eq, ← Int.natAbs_neg, neg_sub]

/-- The parts are those of the total. -/
theorem duration_parts_eq (s e : ℤ) :
    (duration s e).days = (duration s e).totalSeconds / 86400 ∧
      (duration s e).hours = (duration s e).totalSeconds / 3600 % 24 ∧
      (duration s e).minutes = (duration s e).totalSeconds / 60 % 60 ∧
      (duration s e).seconds = (duration s e).totalSeconds % 60 := by
  rw [duration_eq]
  simp [Nat.div_div_eq_div_mul]

/-! ## Reading the parts back -/

/-- `${n}${unit}`. -/
def part (n : ℕ) (unit : Char) : List Char := Nat.toDigits 10 n ++ [unit]

/-- The number in front of a unit, over the parts that end in it. -/
def amount (unit : Char) (parts : List (List Char)) : ℕ :=
  ((parts.filter fun p => p.getLast? = some unit).map fun p =>
    Nat.ofDigitChars 10 p.dropLast 0).sum

theorem amount_append (unit : Char) (parts parts' : List (List Char)) :
    amount unit (parts ++ parts') = amount unit parts + amount unit parts' := by
  simp [amount]

/-- A part is left out when its number is zero, which changes no amount. -/
theorem amount_part {n : ℕ} {unit unit' : Char} {printed : Prop} [Decidable printed]
    (h : ¬ printed → n = 0) :
    amount unit (if printed then [part n unit'] else []) = if unit' = unit then n else 0 := by
  by_cases hprinted : printed
  · by_cases hunit : unit' = unit
    · simp [amount, part, hprinted, hunit, Nat.ofDigitChars_ten_toDigits]
    · simp [amount, part, hprinted, hunit]
  · simp [amount, hprinted, h hprinted]

theorem toList_interpolated (n : ℕ) (unit : String) :
    (toString n ++ unit).toList = Nat.toDigits 10 n ++ unit.toList := by
  simp [Nat.repr_eq_ofList_toDigits]

/-- The parts as lists of characters. -/
theorem durationParts_toList (d : Duration) : (durationParts d).map String.toList =
    (if d.days > 0 then [part d.days 'd'] else []) ++
      (if d.hours > 0 then [part d.hours 'h'] else []) ++
      (if d.minutes > 0 then [part d.minutes 'm'] else []) ++
      (if (d.days = 0 ∧ d.hours = 0 ∧ d.minutes = 0) ∨ d.seconds > 0 then
        [part d.seconds 's'] else []) := by
  have hnone : ((if d.days > 0 then [s!"{d.days}d"] else []) ++
      (if d.hours > 0 then [s!"{d.hours}h"] else []) ++
      (if d.minutes > 0 then [s!"{d.minutes}m"] else [])).length = 0 ↔
      d.days = 0 ∧ d.hours = 0 ∧ d.minutes = 0 := by
    by_cases hd : d.days = 0 <;> by_cases hh : d.hours = 0 <;> by_cases hm : d.minutes = 0 <;>
      simp [hd, hh, hm, Nat.pos_iff_ne_zero]
  have hd : (s!"{d.days}d").toList = part d.days 'd' := toList_interpolated d.days "d"
  have hh : (s!"{d.hours}h").toList = part d.hours 'h' := toList_interpolated d.hours "h"
  have hm : (s!"{d.minutes}m").toList = part d.minutes 'm' := toList_interpolated d.minutes "m"
  have hs : (s!"{d.seconds}s").toList = part d.seconds 's' := toList_interpolated d.seconds "s"
  unfold durationParts
  simp only [hnone, List.map_append, apply_ite (List.map String.toList), List.map_cons,
    List.map_nil, hd, hh, hm, hs]

/-- **The amounts** of a duration are read back from its parts. -/
theorem amount_parts (unit : Char) (d : Duration) :
    amount unit ((durationParts d).map String.toList) =
      (if 'd' = unit then d.days else 0) + (if 'h' = unit then d.hours else 0) +
        (if 'm' = unit then d.minutes else 0) + (if 's' = unit then d.seconds else 0) := by
  rw [durationParts_toList, amount_append, amount_append, amount_append, amount_part (by omega),
    amount_part (by omega), amount_part (by omega), amount_part (by omega)]

/-- A part has no blank in it. -/
theorem blank_not_mem_part (n : ℕ) {unit : Char} (h : unit ≠ ' ') : ' ' ∉ part n unit := by
  intro hmem
  rcases List.mem_append.1 hmem with hmem | hmem
  · exact absurd (Nat.isDigit_of_mem_toDigits (by omega) (by omega) hmem) (by decide)
  · exact h (List.mem_singleton.1 hmem).symm

/-- The parts are read back from the text. -/
theorem splitOn_formatDuration (d : Duration) :
    (formatDuration d).toList.splitOn ' ' = (durationParts d).map String.toList := by
  have hblank : ∀ p ∈ (durationParts d).map String.toList, ' ' ∉ p := by
    rw [durationParts_toList]
    intro p hp
    simp only [List.mem_append, List.mem_ite_nil_right, List.mem_singleton] at hp
    rcases hp with ((⟨-, rfl⟩ | ⟨-, rfl⟩) | ⟨-, rfl⟩) | ⟨-, rfl⟩ <;>
      exact blank_not_mem_part _ (by decide)
  have hne : (durationParts d).map String.toList ≠ [] := by
    rw [durationParts_toList]
    by_cases hd : d.days > 0
    · simp [hd]
    · by_cases hh : d.hours > 0
      · simp [hh]
      · by_cases hm : d.minutes > 0
        · simp [hm]
        · simp [show d.days = 0 by omega, show d.hours = 0 by omega, show d.minutes = 0 by omega]
  rw [formatDuration, String.toList_intercalate]
  exact List.splitOn_intercalate ' ' hblank hne

/-- **Two texts** are the same only for the same amounts. -/
theorem eq_of_formatDuration_eq {d d' : Duration} (h : formatDuration d = formatDuration d') :
    d.days = d'.days ∧ d.hours = d'.hours ∧ d.minutes = d'.minutes ∧ d.seconds = d'.seconds := by
  have hparts : (durationParts d).map String.toList = (durationParts d').map String.toList := by
    rw [← splitOn_formatDuration, h, splitOn_formatDuration]
  have hamount : ∀ unit, amount unit ((durationParts d).map String.toList) =
      amount unit ((durationParts d').map String.toList) := fun unit => congrArg (amount unit) hparts
  simp only [amount_parts] at hamount
  exact ⟨by simpa using hamount 'd', by simpa using hamount 'h', by simpa using hamount 'm',
    by simpa using hamount 's'⟩

/-- **Of two pairs of instants**, the texts are the same exactly when the totals are. -/
theorem formatDuration_duration_eq_iff (s e s' e' : ℤ) :
    formatDuration (duration s e) = formatDuration (duration s' e') ↔
      (duration s e).totalSeconds = (duration s' e').totalSeconds := by
  obtain ⟨hd, hh, hm, hs⟩ := duration_parts_eq s e
  obtain ⟨hd', hh', hm', hs'⟩ := duration_parts_eq s' e'
  constructor
  · intro h
    obtain ⟨hdays, hhours, hminutes, hseconds⟩ := eq_of_formatDuration_eq h
    omega
  · intro h
    rw [h] at hd hh hm hs
    rw [formatDuration, formatDuration, durationParts, durationParts, hd, hh, hm, hs, hd', hh',
      hm', hs']

/-- **Durations** decompose exactly and print without loss: of two instants, in either
order, the parts are within their bounds and make up the total, which is the seconds
between; and two texts are the same exactly for the same total. -/
theorem durations (parseISO : String → Option ℤ) (s e : ℤ) :
    durationBetween parseISO (.date s) (.date e) = .ok (duration s e) ∧
      durationBetween parseISO (.date e) (.date s) = .ok (duration s e) ∧
      (duration s e).hours < 24 ∧ (duration s e).minutes < 60 ∧ (duration s e).seconds < 60 ∧
      (duration s e).days * 86400 + (duration s e).hours * 3600 + (duration s e).minutes * 60 +
        (duration s e).seconds = (duration s e).totalSeconds ∧
      ((duration s e).totalSeconds : ℤ) = |e - s| / 1000 ∧
      ∀ s' e', formatDuration (duration s e) = formatDuration (duration s' e') ↔
        (duration s e).totalSeconds = (duration s' e').totalSeconds := by
  obtain ⟨hd, hh, hm, hs⟩ := duration_parts_eq s e
  refine ⟨rfl, congrArg Except.ok (duration_comm e s), by omega, by omega, by omega, by omega, ?_,
    fun s' e' => formatDuration_duration_eq_iff s e s' e'⟩
  rw [duration_eq, Int.abs_eq_natAbs]
  simp

end EnterpriseSystem.Common
