import EnterpriseSystem.Scheduling.Retry

/-!
# The delay between two attempts

What `calculateDelay` of `src/common/utils/async.util.ts` makes of an attempt and a random
number, with the numbers exact.  By `delay_of_slept` these are the delays that `retry` sleeps.

* `cappedDelay` — the delay before the jitter.
* `WithinRounding`, `InRange` — the range that the comment on the jitter names, and the cap.
* `le_calculateDelay` — the lower end is always kept.
* `inRange_iff` — the upper end and the cap are kept unless the draw is too low.
* `slept_le` — what `retry` sleeps is never above the cap by more than half of the jitter.
-/

namespace EnterpriseSystem.Scheduling

/-- An integer is as near to the range as rounding takes it. -/
def WithinRounding (low high : ℚ) (n : ℤ) : Prop :=
  ∃ x, low ≤ x ∧ x ≤ high ∧ |(n : ℚ) - x| ≤ 1 / 2

theorem withinRounding_iff {low high : ℚ} (hle : low ≤ high) {n : ℤ} :
    WithinRounding low high n ↔ low - 1 / 2 ≤ n ∧ (n : ℚ) ≤ high + 1 / 2 := by
  constructor
  · rintro ⟨x, hlow, hhigh, hnear⟩
    obtain ⟨hbelow, habove⟩ := abs_le.1 hnear
    exact ⟨by linarith, by linarith⟩
  · rintro ⟨hlow, hhigh⟩
    -- the point of the range that is nearest to the integer
    rcases le_total (n : ℚ) low with hbelow | hbelow
    · exact ⟨low, le_rfl, hle, abs_le.2 ⟨by linarith, by linarith⟩⟩
    rcases le_total high (n : ℚ) with habove | habove
    · exact ⟨high, hle, le_rfl, abs_le.2 ⟨by linarith, by linarith⟩⟩
    · exact ⟨n, hbelow, habove, by norm_num⟩

theorem mathRound_le_iff {x : ℚ} {n : ℤ} : mathRound x ≤ n ↔ x < n + 1 / 2 := by
  unfold mathRound
  rw [Int.floor_le_iff]
  constructor
  · intro h
    linarith
  · intro h
    linarith

section

variable {E : Type}

/-- The delay before the jitter. -/
def cappedDelay (attempt : ℕ) (opts : RetryOptions E) : ℚ :=
  min (opts.baseDelayMs * opts.backoffMultiplier ^ (attempt - 1)) opts.maxDelayMs

/-- The delay is in the range that the jitter is to keep it in, and under the cap. -/
def InRange (attempt : ℕ) (opts : RetryOptions E) (delay : ℤ) : Prop :=
  WithinRounding (cappedDelay attempt opts * (1 - opts.jitterFactor)) (cappedDelay attempt opts)
      delay ∧
    (delay : ℚ) ≤ opts.maxDelayMs

variable {opts : RetryOptions E} {attempt : ℕ} {random : ℚ}

/-- The range is centred on the delay before the jitter. -/
theorem calculateDelay_eq (attempt : ℕ) (opts : RetryOptions E) (random : ℚ) :
    calculateDelay attempt opts random =
      mathRound (cappedDelay attempt opts +
        cappedDelay attempt opts * opts.jitterFactor * (1 / 2 - random)) := by
  show mathRound (_ - random * (cappedDelay attempt opts * opts.jitterFactor) + _) = _
  congr 1
  unfold cappedDelay
  ring

theorem cappedDelay_nonneg (hbase : 0 ≤ opts.baseDelayMs) (hmax : 0 ≤ opts.maxDelayMs)
    (hmultiplier : 1 ≤ opts.backoffMultiplier) : 0 ≤ cappedDelay attempt opts :=
  le_min (mul_nonneg hbase (pow_nonneg (zero_le_one.trans hmultiplier) _)) hmax

/-- A delay is at most an integer when the draw is not too low. -/
theorem calculateDelay_le_iff {n : ℤ} :
    calculateDelay attempt opts random ≤ n ↔
      cappedDelay attempt opts * opts.jitterFactor * (1 / 2 - random) <
        n + 1 / 2 - cappedDelay attempt opts := by
  rw [calculateDelay_eq, mathRound_le_iff, lt_sub_iff_add_lt']

/-- **The lower end is always kept.** -/
theorem le_calculateDelay (hcapped : 0 ≤ cappedDelay attempt opts)
    (hjitter : 0 ≤ opts.jitterFactor) (hrandom : random < 1) :
    cappedDelay attempt opts * (1 - opts.jitterFactor) - 1 / 2 ≤
      calculateDelay attempt opts random := by
  have hproduct : 0 ≤ cappedDelay attempt opts * opts.jitterFactor := mul_nonneg hcapped hjitter
  have hdrawn : cappedDelay attempt opts * opts.jitterFactor * random ≤
      cappedDelay attempt opts * opts.jitterFactor :=
    mul_le_of_le_one_right hproduct hrandom.le
  have hround := mathRound_le_iff.1 (calculateDelay_eq attempt opts random).ge
  linarith

/-- **The delay is in its range and under the cap** exactly when what is drawn does not lift
it over them. -/
theorem inRange_iff (hbase : 0 ≤ opts.baseDelayMs) (hmax : 0 ≤ opts.maxDelayMs)
    (hmultiplier : 1 ≤ opts.backoffMultiplier) (hjitter : 0 ≤ opts.jitterFactor)
    (hrandom : random < 1) :
    InRange attempt opts (calculateDelay attempt opts random) ↔
      cappedDelay attempt opts * opts.jitterFactor * (1 / 2 - random) <
          ⌊cappedDelay attempt opts + 1 / 2⌋ + 1 / 2 - cappedDelay attempt opts ∧
        cappedDelay attempt opts * opts.jitterFactor * (1 / 2 - random) <
          ⌊opts.maxDelayMs⌋ + 1 / 2 - cappedDelay attempt opts := by
  have hcapped : 0 ≤ cappedDelay attempt opts := cappedDelay_nonneg hbase hmax hmultiplier
  have hrange : cappedDelay attempt opts * (1 - opts.jitterFactor) ≤ cappedDelay attempt opts :=
    mul_le_of_le_one_right hcapped (by linarith)
  unfold InRange
  rw [withinRounding_iff hrange, and_iff_right (le_calculateDelay hcapped hjitter hrandom),
    ← Int.le_floor, ← Int.le_floor, calculateDelay_le_iff, calculateDelay_le_iff]

/-- **What `retry` sleeps** is at most the cap and half of the jitter on it. -/
theorem slept_le {V : Type} {options : PartialRetryOptions E}
    {outcomes : ℕ → Except (Reason E) V} {randoms : ℕ → ℚ}
    (hbase : 0 ≤ options.withDefaults.baseDelayMs) (hmax : 0 ≤ options.withDefaults.maxDelayMs)
    (hmultiplier : 1 ≤ options.withDefaults.backoffMultiplier)
    (hjitter : 0 ≤ options.withDefaults.jitterFactor) (hrandoms : ∀ k, 0 ≤ randoms k) {delay : ℤ}
    (h : .slept delay ∈ (retried options outcomes randoms).2.events) :
    (delay : ℚ) ≤ options.withDefaults.maxDelayMs * (1 + options.withDefaults.jitterFactor / 2) +
      1 / 2 := by
  obtain ⟨attempt, -, -, rfl⟩ := delay_of_slept h
  have hcapped : 0 ≤ cappedDelay attempt options.withDefaults :=
    cappedDelay_nonneg hbase hmax hmultiplier
  have hcap : cappedDelay attempt options.withDefaults ≤ options.withDefaults.maxDelayMs :=
    min_le_right ..
  have hround := Int.floor_le (cappedDelay attempt options.withDefaults +
    cappedDelay attempt options.withDefaults * options.withDefaults.jitterFactor *
      (1 / 2 - randoms attempt) + 1 / 2)
  have hdrawn : 0 ≤ cappedDelay attempt options.withDefaults * options.withDefaults.jitterFactor *
      randoms attempt := mul_nonneg (mul_nonneg hcapped hjitter) (hrandoms attempt)
  have hscaled : cappedDelay attempt options.withDefaults *
      (1 + options.withDefaults.jitterFactor / 2) ≤
        options.withDefaults.maxDelayMs * (1 + options.withDefaults.jitterFactor / 2) :=
    mul_le_mul_of_nonneg_right hcap (by linarith)
  rw [calculateDelay_eq, mathRound]
  linarith

end

/-- The theorem at work, on the sixth attempt with the default options. -/
theorem inRange_iff_sixth :
    InRange 6 (DEFAULT_RETRY_OPTIONS Unit) (calculateDelay 6 (DEFAULT_RETRY_OPTIONS Unit) 0) ↔
      cappedDelay 6 (DEFAULT_RETRY_OPTIONS Unit) * (3 / 10) * (1 / 2 - 0) <
          ⌊cappedDelay 6 (DEFAULT_RETRY_OPTIONS Unit) + 1 / 2⌋ + 1 / 2 -
            cappedDelay 6 (DEFAULT_RETRY_OPTIONS Unit) ∧
        cappedDelay 6 (DEFAULT_RETRY_OPTIONS Unit) * (3 / 10) * (1 / 2 - 0) <
          ⌊(30000 : ℚ)⌋ + 1 / 2 - cappedDelay 6 (DEFAULT_RETRY_OPTIONS Unit) :=
  inRange_iff (by decide +kernel) (by decide +kernel) (by decide +kernel) (by decide +kernel)
    (by decide +kernel)

/-- There the lowest draw makes it 34500 milliseconds, where 30000 are the most. -/
theorem not_inRange :
    ¬ ∀ (opts : RetryOptions Unit) (attempt : ℕ) (random : ℚ), 1 ≤ attempt →
        0 ≤ opts.baseDelayMs → 0 ≤ opts.maxDelayMs → 1 ≤ opts.backoffMultiplier →
          0 ≤ opts.jitterFactor → opts.jitterFactor ≤ 1 → 0 ≤ random → random < 1 →
            InRange attempt opts (calculateDelay attempt opts random) := by
  intro h
  have hdelay : calculateDelay 6 (DEFAULT_RETRY_OPTIONS Unit) 0 = 34500 := by decide +kernel
  obtain ⟨-, hcap⟩ := h (DEFAULT_RETRY_OPTIONS Unit) 6 0 (by decide) (by decide +kernel)
    (by decide +kernel) (by decide +kernel) (by decide +kernel) (by decide +kernel) le_rfl
    zero_lt_one
  rw [hdelay] at hcap
  exact absurd hcap (by decide +kernel)

end EnterpriseSystem.Scheduling
