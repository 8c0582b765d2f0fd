import EnterpriseSystem.Base.Program
import EnterpriseSystem.Scheduling.Parallel

/-!
# Retries

`retry` of `src/common/utils/async.util.ts`: a function is called until it succeeds, fails
in a way that is not to be retried, or has been called `maxAttempts` times.

* `retry` — the function of the source, over what it does outside: calling `fn`, drawing a
  random number, notifying and sleeping.
* `Specified` — what it should do, for one sequence of outcomes.
* `run_attempts_succ` — one round of the loop.
* `specified_iff` — it does that unless it meets a value that cannot be made an `Error`.
* `delay_of_slept` — what it sleeps.
-/

namespace EnterpriseSystem.Scheduling

open Concurrency

/-! ## Options -/

/-- `RetryOptions`; `onRetry` is whether there is a callback. -/
structure RetryOptions (E : Type) where
  maxAttempts : ℕ
  baseDelayMs : ℚ
  maxDelayMs : ℚ
  backoffMultiplier : ℚ
  jitterFactor : ℚ
  isRetryable : Option (TaskError E → Bool) := none
  onRetry : Bool := false

/-- `Partial<RetryOptions>`. -/
structure PartialRetryOptions (E : Type) where
  maxAttempts : Option ℕ := none
  baseDelayMs : Option ℚ := none
  maxDelayMs : Option ℚ := none
  backoffMultiplier : Option ℚ := none
  jitterFactor : Option ℚ := none
  isRetryable : Option (TaskError E → Bool) := none
  onRetry : Bool := false

/-- `DEFAULT_RETRY_OPTIONS`. -/
def DEFAULT_RETRY_OPTIONS (E : Type) : RetryOptions E :=
  { maxAttempts := 3
    baseDelayMs := 1000
    maxDelayMs := 30000
    backoffMultiplier := 2
    jitterFactor := 3 / 10 }

/-- `{ ...DEFAULT_RETRY_OPTIONS, ...options }`. -/
def PartialRetryOptions.withDefaults {E : Type} (options : PartialRetryOptions E) :
    RetryOptions E :=
  let defaults := DEFAULT_RETRY_OPTIONS E
  { maxAttempts := options.maxAttempts.getD defaults.maxAttempts
    baseDelayMs := options.baseDelayMs.getD defaults.baseDelayMs
    maxDelayMs := options.maxDelayMs.getD defaults.maxDelayMs
    backoffMultiplier := options.backoffMultiplier.getD defaults.backoffMultiplier
    jitterFactor := options.jitterFactor.getD defaults.jitterFactor
    isRetryable := options.isRetryable
    onRetry := options.onRetry }

/-- `opts.isRetryable && !opts.isRetryable(error)`. -/
def RetryOptions.refuses {E : Type} (opts : RetryOptions E) (error : TaskError E) : Bool :=
  opts.isRetryable.any fun isRetryable => !isRetryable error

/-- `Math.round`. -/
def mathRound (x : ℚ) : ℤ := ⌊x + 1 / 2⌋

/-- `calculateDelay`; `random` is what `Math.random()` returns. -/
def calculateDelay {E : Type} (attempt : ℕ) (opts : RetryOptions E) (random : ℚ) : ℤ :=
  let exponentialDelay := opts.baseDelayMs * opts.backoffMultiplier ^ (attempt - 1)
  let cappedDelay := min exponentialDelay opts.maxDelayMs
  let jitterRange := cappedDelay * opts.jitterFactor
  let jitter := random * jitterRange
  mathRound (cappedDelay - jitter + jitterRange / 2)

/-! ## The loop -/

/-- What `retry` does outside. -/
inductive RetryOp (E : Type) where
  | call
  | random
  | notify (attempt : ℕ) (error : TaskError E) (delay : ℤ)
  | sleep (delay : ℤ)

/-- What comes back. -/
def RetryOp.Answer (V : Type) {E : Type} : RetryOp E → Type
  | call => Except (Reason E) V
  | random => ℚ
  | notify .. => Unit
  | sleep _ => Unit

abbrev RetryProg (V E : Type) : Type → Type := Prog (RetryOp E) (RetryOp.Answer V)

/-- How a call of `retry` settles. -/
inductive Settled (V E : Type) where
  | fulfilled (value : V)
  | rejected (error : TaskError E)
  /-- With what `String` threw. -/
  | conversionError
  /-- `throw lastError` with no error yet. -/
  | undefinedError
  deriving DecidableEq

section

variable {V E : Type}

/-- `await fn()`. -/
def fn : RetryProg V E (Except (Reason E) V) := .op .call .ret

/-- `Math.random()`. -/
def mathRandom : RetryProg V E ℚ := .op .random .ret

/-- `opts.onRetry?.(attempt, error, delayMs)`. -/
def notify (opts : RetryOptions E) (attempt : ℕ) (error : TaskError E) (delayMs : ℤ) :
    RetryProg V E Unit :=
  if opts.onRetry then .op (.notify attempt error delayMs) .ret else pure ()

/-- `await sleep(ms)`. -/
def sleep (ms : ℤ) : RetryProg V E Unit := .op (.sleep ms) .ret

/-- The loop of `retry` from an attempt on, for so many more rounds. -/
def attempts (opts : RetryOptions E) :
    ℕ → ℕ → Option (TaskError E) → RetryProg V E (Settled V E)
  | 0, _, some lastError => pure (.rejected lastError)
  | 0, _, none => pure .undefinedError
  | rounds + 1, attempt, _ => do
    match ← fn with
    | .ok value => pure (.fulfilled value)
    | .error reason =>
      match reason.toError with
      | none => pure .conversionError
      | some lastError =>
        if opts.refuses lastError then
          pure (.rejected lastError)
        else do
          if attempt < opts.maxAttempts then
            let delayMs := calculateDelay attempt opts (← mathRandom)
            notify opts attempt lastError delayMs
            sleep delayMs
          attempts opts rounds (attempt + 1) (some lastError)

/-- `retry`. -/
def retry (options : PartialRetryOptions E) : RetryProg V E (Settled V E) :=
  let opts := options.withDefaults
  attempts opts opts.maxAttempts 1 none

/-! ## What is seen of it -/

inductive RetryEvent (E : Type) where
  | called
  | notified (attempt : ℕ) (error : TaskError E) (delay : ℤ)
  | slept (delay : ℤ)
  deriving DecidableEq

/-- How often `fn` has been called and a number been drawn, and what has happened. -/
structure Retrying (E : Type) where
  calls : ℕ := 0
  draws : ℕ := 0
  events : List (RetryEvent E) := []

/-- The outside: the `k`-th call of `fn` has `outcomes k`, and the `k`-th number drawn is
`randoms k`. -/
def RetryOp.exec (outcomes : ℕ → Except (Reason E) V) (randoms : ℕ → ℚ) :
    (o : RetryOp E) → Retrying E → o.Answer V × Retrying E
  | .call, s =>
    (outcomes (s.calls + 1), { s with calls := s.calls + 1, events := s.events ++ [.called] })
  | .random, s => (randoms (s.draws + 1), { s with draws := s.draws + 1 })
  | .notify attempt error delay, s =>
    ((), { s with events := s.events ++ [.notified attempt error delay] })
  | .sleep delay, s => ((), { s with events := s.events ++ [.slept delay] })

/-! ## What it should do -/

/-- The call settles with that outcome, a failure as an `Error`. -/
def Settled.SettlesWith (settled : Settled V E) : Except (Reason E) V → Prop
  | .ok value => settled = .fulfilled value
  | .error reason => ∃ error, reason.toError = some error ∧ settled = .rejected error

/-- A success, or a failure that is not to be retried. -/
def Final (opts : RetryOptions E) : Except (Reason E) V → Prop
  | .ok _ => True
  | .error reason => ∃ error, reason.toError = some error ∧ opts.refuses error = true

/-- What happens between two calls: one notification, if there is a callback, and then one
sleep of the delay it announced. -/
def between (opts : RetryOptions E) (attempt : ℕ) (told : TaskError E × ℤ) :
    List (RetryEvent E) :=
  (if opts.onRetry then [.notified attempt told.1 told.2] else []) ++ [.slept told.2]

/-- **What `retry` should do** from an attempt on: go on up to the first final outcome, or up
to the last attempt, and settle with that. -/
def Specified (opts : RetryOptions E) (outcomes : ℕ → Except (Reason E) V) (attempt : ℕ)
    (settled : Settled V E) (events : List (RetryEvent E)) : Prop :=
  ∃ last, attempt ≤ last ∧ last ≤ opts.maxAttempts ∧
    (∀ k, attempt ≤ k → k < last → ¬ Final opts (outcomes k)) ∧
    (Final opts (outcomes last) ∨ last = opts.maxAttempts) ∧
    settled.SettlesWith (outcomes last) ∧
    ∃ told : ℕ → TaskError E × ℤ,
      (∀ k, attempt ≤ k → k < last → (Settled.rejected (told k).1).SettlesWith (outcomes k)) ∧
      events = ((List.range' attempt (last - attempt)).flatMap fun k =>
        .called :: between opts k (told k)) ++ [.called]

/-- A value that `fn` fails with can be made an `Error`. -/
def HasError : Except (Reason E) V → Prop
  | .ok _ => True
  | .error reason => reason.toError ≠ none

/-- That is so of all that come up. -/
def Convertible (opts : RetryOptions E) (outcomes : ℕ → Except (Reason E) V) (attempt : ℕ) :
    Prop :=
  ∀ last, attempt ≤ last → last ≤ opts.maxAttempts →
    (∀ k, attempt ≤ k → k < last → ¬ Final opts (outcomes k)) → HasError (outcomes last)

/-! ## One round -/

section

variable {opts : RetryOptions E} {outcomes : ℕ → Except (Reason E) V} {randoms : ℕ → ℚ}

/-- `fn` has been called once more. -/
def Retrying.call (s : Retrying E) : Retrying E :=
  { s with calls := s.calls + 1, events := s.events ++ [.called] }

/-- What is told and slept between two calls. -/
def Retrying.wait (s : Retrying E) (opts : RetryOptions E) (attempt : ℕ)
    (told : TaskError E × ℤ) : Retrying E :=
  { s with draws := s.draws + 1, events := s.events ++ between opts attempt told }

variable (opts outcomes randoms) in
/-- **One round**: a call, and then one of the three exits or a pause and the next round. -/
theorem run_attempts_succ (rounds attempt : ℕ) (lastError : Option (TaskError E))
    (s : Retrying E) :
    (attempts opts (rounds + 1) attempt lastError).run (RetryOp.exec outcomes randoms) s =
      match outcomes (s.calls + 1) with
      | .ok value => (.fulfilled value, s.call)
      | .error reason =>
        match reason.toError with
        | none => (.conversionError, s.call)
        | some error =>
          if opts.refuses error then (.rejected error, s.call)
          else
            (attempts opts rounds (attempt + 1) (some error)).run (RetryOp.exec outcomes randoms)
              (if attempt < opts.maxAttempts then
                s.call.wait opts attempt
                  (error, calculateDelay attempt opts (randoms (s.draws + 1)))
              else s.call) := by
  show Prog.run _ (match outcomes (s.calls + 1) with
    | .ok value => _
    | .error reason => _) s.call = _
  cases outcomes (s.calls + 1) with
  | ok value => rfl
  | error reason =>
    dsimp only
    cases reason.toError with
    | none => rfl
    | some error =>
      dsimp only
      by_cases hrefuses : opts.refuses error = true
      · rw [if_pos hrefuses, if_pos hrefuses]
        rfl
      rw [if_neg hrefuses, if_neg hrefuses]
      by_cases hlt : attempt < opts.maxAttempts
      · rw [if_pos hlt, if_pos hlt]
        unfold notify Retrying.wait between
        cases opts.onRetry with
        | false => rfl
        | true =>
          rw [if_pos rfl, ← List.append_assoc]
          rfl
      · rw [if_neg hlt, if_neg hlt]

/-! ## Up to the last attempt -/

/-- An outcome settles the call in one way. -/
theorem Settled.SettlesWith.eq {first second : Settled V E} {outcome : Except (Reason E) V}
    (hfirst : first.SettlesWith outcome) (hsecond : second.SettlesWith outcome) :
    first = second := by
  cases outcome with
  | ok value => exact Eq.trans hfirst (Eq.symm hsecond)
  | error reason =>
    obtain ⟨error, herror, rfl⟩ := hfirst
    obtain ⟨error', herror', rfl⟩ := hsecond
    rw [Option.some.inj (herror.symm.trans herror')]

theorem Settled.SettlesWith.hasError {settled : Settled V E} {outcome : Except (Reason E) V}
    (h : settled.SettlesWith outcome) : HasError outcome := by
  cases outcome with
  | ok value => trivial
  | error reason =>
    obtain ⟨error, herror, -⟩ := h
    simp [HasError, herror]

variable {attempt : ℕ} {settled : Settled V E} {events : List (RetryEvent E)}

/-- At the last attempt, only its own outcome is left. -/
theorem specified_of_last (hle : attempt ≤ opts.maxAttempts)
    (hlast : Final opts (outcomes attempt) ∨ attempt = opts.maxAttempts) :
    Specified opts outcomes attempt settled [.called] ↔
      settled.SettlesWith (outcomes attempt) := by
  constructor
  · rintro ⟨last, hfrom, hto, hnot, -, hsettles, -⟩
    obtain rfl : last = attempt := by
      by_contra hne
      rcases hlast with hfinal | rfl
      · exact hnot attempt le_rfl (by omega) hfinal
      · omega
    exact hsettles
  · intro hsettles
    refine ⟨attempt, le_rfl, hle, by omega, hlast, hsettles, fun _ => (.made "", 0), by omega, ?_⟩
    simp

theorem length_between (opts : RetryOptions E) (attempt : ℕ) (told told' : TaskError E × ℤ) :
    (between opts attempt told).length = (between opts attempt told').length := by
  unfold between
  cases opts.onRetry with
  | false => rfl
  | true => rfl

/-- Before it, a failure that is to be retried is told and slept on. -/
theorem specified_succ {told : TaskError E × ℤ} (hlt : attempt < opts.maxAttempts)
    (hnot : ¬ Final opts (outcomes attempt))
    (herror : (Settled.rejected told.1).SettlesWith (outcomes attempt)) :
    Specified opts outcomes attempt settled
        (.called :: (between opts attempt told ++ events)) ↔
      Specified opts outcomes (attempt + 1) settled events := by
  have hrange : ∀ last, attempt < last → List.range' attempt (last - attempt) =
      attempt :: List.range' (attempt + 1) (last - (attempt + 1)) := by
    intro last hlast
    rw [show last - attempt = last - (attempt + 1) + 1 by omega, List.range'_succ]
  constructor
  · rintro ⟨last, hfrom, hto, hnots, hlast, hsettles, toldAt, htold, hevents⟩
    have hmore : attempt < last := by
      refine lt_of_le_of_ne hfrom ?_
      rintro rfl
      rcases hlast with hfinal | rfl
      · exact hnot hfinal
      · omega
    rw [hrange last hmore, List.flatMap_cons, List.cons_append, List.cons_append] at hevents
    have hevents := (List.cons.inj hevents).2
    rw [List.append_assoc] at hevents
    obtain ⟨-, hrest⟩ := List.append_inj hevents (length_between opts attempt _ _)
    exact ⟨last, hmore, hto, fun k hk => hnots k (by omega), hlast, hsettles, toldAt,
      fun k hk => htold k (by omega), hrest⟩
  · rintro ⟨last, hfrom, hto, hnots, hlast, hsettles, toldAt, htold, hevents⟩
    refine ⟨last, by omega, hto, fun k hk hk' => ?_, hlast, hsettles,
      Function.update toldAt attempt told, fun k hk hk' => ?_, ?_⟩
    · rcases Nat.eq_or_lt_of_le hk with rfl | hk
      · exact hnot
      · exact hnots k hk hk'
    · rcases Nat.eq_or_lt_of_le hk with rfl | hk
      · rwa [Function.update_self]
      · rw [Function.update_of_ne (by omega)]
        exact htold k hk hk'
    · have hlater : ∀ k ∈ List.range' (attempt + 1) (last - (attempt + 1)),
          RetryEvent.called :: between opts k (Function.update toldAt attempt told k) =
            .called :: between opts k (toldAt k) := by
        intro k hk
        rw [Function.update_of_ne (by have := List.mem_range'_1.1 hk; omega)]
      rw [hrange last hfrom, List.flatMap_cons, List.flatMap_congr hlater,
        Function.update_self, hevents]
      simp

theorem not_specified (herror : ¬ HasError (outcomes attempt)) :
    ¬ Specified opts outcomes attempt settled events := by
  rintro ⟨last, hfrom, -, -, -, hsettles, told, htold, -⟩
  rcases Nat.eq_or_lt_of_le hfrom with rfl | hmore
  · exact herror hsettles.hasError
  · exact herror (htold attempt le_rfl hmore).hasError

theorem convertible_of_last (hle : attempt ≤ opts.maxAttempts)
    (hlast : Final opts (outcomes attempt) ∨ attempt = opts.maxAttempts) :
    Convertible opts outcomes attempt ↔ HasError (outcomes attempt) := by
  constructor
  · intro h
    exact h attempt le_rfl hle (by omega)
  · intro herror last hfrom hto hnot
    rcases Nat.eq_or_lt_of_le hfrom with rfl | hmore
    · exact herror
    · rcases hlast with hfinal | rfl
      · exact absurd hfinal (hnot attempt le_rfl hmore)
      · omega

theorem convertible_succ (hnot : ¬ Final opts (outcomes attempt))
    (herror : HasError (outcomes attempt)) :
    Convertible opts outcomes attempt ↔ Convertible opts outcomes (attempt + 1) := by
  constructor
  · intro h last hfrom hto hnots
    refine h last (by omega) hto fun k hk hk' => ?_
    rcases Nat.eq_or_lt_of_le hk with rfl | hk
    · exact hnot
    · exact hnots k hk hk'
  · intro h last hfrom hto hnots
    rcases Nat.eq_or_lt_of_le hfrom with rfl | hmore
    · exact herror
    · exact h last hmore hto fun k hk => hnots k (by omega)

/-! ## All rounds -/

/-- A round that ends the loop. -/
theorem specified_exit {s : Retrying E} {result : Settled V E × Retrying E}
    (hresult : result = (settled, s.call)) (hle : attempt ≤ opts.maxAttempts)
    (hexit : ¬ HasError (outcomes attempt) ∨
      (Final opts (outcomes attempt) ∨ attempt = opts.maxAttempts) ∧
        settled.SettlesWith (outcomes attempt)) :
    ∃ more, result.2.events = s.events ++ more ∧
      (Specified opts outcomes attempt result.1 more ↔ Convertible opts outcomes attempt) := by
  subst hresult
  refine ⟨[.called], rfl, ?_⟩
  rcases hexit with herror | ⟨hlast, hsettles⟩
  · constructor
    · exact fun h => absurd h (not_specified herror)
    · exact fun h => absurd (h attempt le_rfl hle (by omega)) herror
  · rw [specified_of_last hle hlast, convertible_of_last hle hlast]
    constructor
    · exact Settled.SettlesWith.hasError
    · exact fun _ => hsettles

/-- **The loop**: what it adds is as specified exactly when it meets no value that cannot be
made an `Error`. -/
theorem specified_attempts (rounds attempt : ℕ) (lastError : Option (TaskError E)) (s : Retrying E)
    (hcalls : s.calls + 1 = attempt) (hrounds : attempt + rounds = opts.maxAttempts) :
    ∃ more, ((attempts opts (rounds + 1) attempt lastError).run
        (RetryOp.exec outcomes randoms) s).2.events = s.events ++ more ∧
      (Specified opts outcomes attempt ((attempts opts (rounds + 1) attempt lastError).run
        (RetryOp.exec outcomes randoms) s).1 more ↔ Convertible opts outcomes attempt) := by
  have hle : attempt ≤ opts.maxAttempts := by omega
  have hround := run_attempts_succ opts outcomes randoms rounds attempt lastError s
  rw [hcalls] at hround
  cases houtcome : outcomes attempt with
  | ok value =>
    rw [houtcome] at hround
    refine specified_exit hround hle (.inr ⟨.inl ?_, ?_⟩)
    · rw [houtcome]
      trivial
    · rw [houtcome]
      rfl
  | error reason =>
    rw [houtcome] at hround
    dsimp only at hround
    cases herror : reason.toError with
    | none =>
      rw [herror] at hround
      refine specified_exit hround hle (.inl ?_)
      rw [houtcome]
      exact fun h => h herror
    | some error =>
      rw [herror] at hround
      dsimp only at hround
      have hsettles : (Settled.rejected error : Settled V E).SettlesWith (outcomes attempt) := by
        rw [houtcome]
        exact ⟨error, herror, rfl⟩
      by_cases hrefuses : opts.refuses error = true
      · rw [if_pos hrefuses] at hround
        refine specified_exit hround hle (.inr ⟨.inl ?_, hsettles⟩)
        rw [houtcome]
        exact ⟨error, herror, hrefuses⟩
      rw [if_neg hrefuses] at hround
      have hnot : ¬ Final opts (outcomes attempt) := by
        rw [houtcome]
        rintro ⟨error', herror', hrefuses'⟩
        rw [herror] at herror'
        cases herror'
        exact hrefuses hrefuses'
      cases rounds with
      | zero =>
        rw [if_neg (by omega)] at hround
        exact specified_exit hround hle (.inr ⟨.inr hrounds, hsettles⟩)
      | succ rounds =>
        rw [if_pos (by omega)] at hround
        obtain ⟨more, hevents, hiff⟩ := specified_attempts rounds (attempt + 1) (some error)
          (s.call.wait opts attempt (error, calculateDelay attempt opts (randoms (s.draws + 1))))
          (congrArg Nat.succ hcalls) (by omega)
        rw [hround]
        refine ⟨.called :: (between opts attempt
          (error, calculateDelay attempt opts (randoms (s.draws + 1))) ++ more), ?_, ?_⟩
        · rw [hevents]
          simp [Retrying.wait, Retrying.call]
        · rw [specified_succ (by omega) hnot hsettles, hiff,
            convertible_succ hnot hsettles.hasError]

/-- What is slept after an attempt is the delay calculated for it. -/
theorem delay_of_slept_attempts (rounds attempt : ℕ) (lastError : Option (TaskError E))
    (s : Retrying E) (hdraws : s.draws + 1 = attempt)
    (hrounds : attempt + rounds ≤ opts.maxAttempts + 1) {delay : ℤ}
    (hslept : .slept delay ∈ ((attempts opts rounds attempt lastError).run
      (RetryOp.exec outcomes randoms) s).2.events) :
    .slept delay ∈ s.events ∨
      ∃ k, attempt ≤ k ∧ k < opts.maxAttempts ∧ delay = calculateDelay k opts (randoms k) := by
  induction rounds generalizing attempt lastError s with
  | zero =>
    cases lastError with
    | none => exact .inl hslept
    | some error => exact .inl hslept
  | succ rounds ih =>
    have hcall : .slept delay ∈ s.call.events → .slept delay ∈ s.events := by
      simp [Retrying.call]
    rw [run_attempts_succ] at hslept
    cases houtcome : outcomes (s.calls + 1) with
    | ok value =>
      rw [houtcome] at hslept
      exact .inl (hcall hslept)
    | error reason =>
      rw [houtcome] at hslept
      dsimp only at hslept
      cases herror : reason.toError with
      | none =>
        rw [herror] at hslept
        exact .inl (hcall hslept)
      | some error =>
        rw [herror] at hslept
        dsimp only at hslept
        split_ifs at hslept with hrefuses hlt
        · exact .inl (hcall hslept)
        · rcases ih (attempt + 1) _ _ (congrArg Nat.succ hdraws) (by omega) hslept with
            hbefore | ⟨k, hfrom, hto, hdelay⟩
          · rcases List.mem_append.1 hbefore with hbefore | hpause
            · exact .inl (hcall hbefore)
            · refine .inr ⟨attempt, le_rfl, hlt, ?_⟩
              unfold between at hpause
              rw [hdraws] at hpause
              cases honRetry : opts.onRetry with
              | false => simpa [honRetry] using hpause
              | true => simpa [honRetry] using hpause
          · exact .inr ⟨k, by omega, hto, hdelay⟩
        · obtain rfl : rounds = 0 := by omega
          exact .inl (hcall hslept)

end

/-- What `retry` comes to. -/
def retried (options : PartialRetryOptions E) (outcomes : ℕ → Except (Reason E) V)
    (randoms : ℕ → ℚ) : Settled V E × Retrying E :=
  (retry options).run (RetryOp.exec outcomes randoms) {}

/-- What `retry` sleeps is the delay calculated for an attempt that is not the last one. -/
theorem delay_of_slept {options : PartialRetryOptions E} {outcomes : ℕ → Except (Reason E) V}
    {randoms : ℕ → ℚ} {delay : ℤ} (h : .slept delay ∈ (retried options outcomes randoms).2.events) :
    ∃ attempt, 1 ≤ attempt ∧ attempt < options.withDefaults.maxAttempts ∧
      delay = calculateDelay attempt options.withDefaults (randoms attempt) := by
  rcases delay_of_slept_attempts _ 1 none {} rfl (by omega) h with h | h
  · exact absurd h List.not_mem_nil
  · exact h

/-- **`retry` does what it should** exactly when every value that `fn` fails with, up to where
it is to end, can be made an `Error`. -/
theorem retrySpecified_iff (options : PartialRetryOptions E)
    (hmax : 1 ≤ options.withDefaults.maxAttempts) (outcomes : ℕ → Except (Reason E) V)
    (randoms : ℕ → ℚ) :
    Specified options.withDefaults outcomes 1 (retried options outcomes randoms).1
        (retried options outcomes randoms).2.events ↔
      Convertible options.withDefaults outcomes 1 := by
  obtain ⟨rounds, hrounds⟩ : ∃ rounds, options.withDefaults.maxAttempts = rounds + 1 :=
    ⟨_, (Nat.sub_add_cancel hmax).symm⟩
  obtain ⟨more, hevents, hiff⟩ : ∃ more, _ ∧ (Specified options.withDefaults outcomes 1
      ((attempts options.withDefaults (rounds + 1) 1 none).run
        (RetryOp.exec outcomes randoms) {}).1 more ↔ _) :=
    specified_attempts rounds 1 none {} rfl (by omega)
  unfold retried retry
  dsimp only
  rw [hrounds, hevents]
  exact hiff

/-- The first call fails, and all others succeed. -/
def secondTry : ℕ → Except (Reason Unit) Unit
  | 1 => .error (.error ())
  | _ => .ok ()

example : (retried {} secondTry fun _ => 0).2.events = [.called, .slept 1150, .called] := by
  decide +kernel

/-- The theorem at work, with the default options. -/
theorem retrySpecified_iff_secondTry :
    Specified (DEFAULT_RETRY_OPTIONS Unit) secondTry 1 (retried {} secondTry fun _ => 0).1
        (retried {} secondTry fun _ => 0).2.events ↔
      Convertible (DEFAULT_RETRY_OPTIONS Unit) secondTry 1 :=
  retrySpecified_iff {} (by decide) secondTry fun _ => 0

/-- A value with which `String` throws ends the call at once. -/
theorem not_retrySpecified :
    ¬ ∀ (options : PartialRetryOptions Unit) (outcomes : ℕ → Except (Reason Unit) Unit)
        (randoms : ℕ → ℚ), 1 ≤ options.withDefaults.maxAttempts →
          Specified options.withDefaults outcomes 1 (retried options outcomes randoms).1
            (retried options outcomes randoms).2.events := by
  intro h
  have hspecified := h { maxAttempts := some 3 } (fun _ => .error (.other none)) (fun _ => 0)
    (by decide)
  have herror : ¬ HasError (.error (.other none) : Except (Reason Unit) Unit) := fun h => h rfl
  exact not_specified herror hspecified

end

end EnterpriseSystem.Scheduling
