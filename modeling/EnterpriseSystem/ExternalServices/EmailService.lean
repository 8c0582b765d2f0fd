import EnterpriseSystem.Base.TokenBucket

/-!
# The limit on emails

`EmailService` of `src/infrastructure/external-services/email.service.ts` up to where an
email is delivered: the tokens are refilled, one is taken, and the email is checked.  All of
that is before the first `await`, and nothing behind it looks at the tokens.

* `EmailService.send` — one call; `history` — the calls, one after the other.
* `after_send` — a call is a moment of a token bucket.
* `passed_le` — in any interval at most one email more than there should be.
* `bucketKept_iff` — the bucket is kept exactly when no email is sent for a part of a token.
-/

namespace EnterpriseSystem.ExternalServices

open FixedWindow TokenBucket

/-! ## `send` -/

/-- `params.to`. -/
inductive Recipients where
  | one (address : String)
  | many (addresses : List String)
  deriving DecidableEq

/-- What is checked of `SendEmailParams`; `recipient` is `to`. -/
structure SendEmailParams where
  recipient : Recipients
  subject : String
  templateId : Option String := none
  html : Option String := none
  text : Option String := none
  deriving DecidableEq

/-- What `send` throws before an email is delivered. -/
inductive SendError where
  | externalServiceError (service message : String)
  | error (message : String)
  deriving DecidableEq

/-- `RateLimiterState`. -/
structure RateLimiterState where
  tokens : ℚ
  lastRefill : ℤ
  deriving DecidableEq

/-- A text that is there and not empty. -/
def truthy (s : Option String) : Bool := s.any (· ≠ "")

namespace EmailService

def rateLimit : ℚ := 100

def rateLimitWindowMs : ℚ := 60000

/-- The limiter of a new service. -/
def new (now : ℤ) : RateLimiterState := { tokens := rateLimit, lastRefill := now }

def refillTokens (now : ℤ) (s : RateLimiterState) : RateLimiterState :=
  let elapsed : ℚ := now - s.lastRefill
  let refillRate := rateLimit / rateLimitWindowMs
  let tokensToAdd := elapsed * refillRate
  { tokens := min rateLimit (s.tokens + tokensToAdd)
    lastRefill := now }

def validateParams (params : SendEmailParams) : Except SendError Unit := do
  if params.recipient = .one "" ∨ params.recipient = .many [] then
    throw (.error "Email recipient is required")
  if params.subject = "" then
    throw (.error "Email subject is required")
  if !truthy params.html && !truthy params.text && !truthy params.templateId then
    throw (.error "Email must have html, text, or templateId")

def rateLimitExceeded : SendError :=
  .externalServiceError "EmailService" "Rate limit exceeded. Try again later."

/-- `send` up to the delivery. -/
def send (now : ℤ) (params : SendEmailParams) (s : RateLimiterState) :
    Except SendError Unit × RateLimiterState :=
  let s := refillTokens now s
  if s.tokens ≤ 0 then (.error rateLimitExceeded, s)
  else (validateParams params, { s with tokens := s.tokens - 1 })

/-! ## Calls -/

/-- A call of `send`: the tokens after the refill, what comes of it, and the tokens behind it. -/
structure Sent where
  time : ℤ
  refilled : RateLimiterState
  result : Except SendError Unit
  after : RateLimiterState

/-- The call has passed the limiter. -/
def Sent.passes (sent : Sent) : Bool := decide (sent.result ≠ .error rateLimitExceeded)

/-- Calls one after the other. -/
def history : RateLimiterState → List (ℤ × SendEmailParams) → List Sent
  | _, [] => []
  | s, (now, params) :: calls =>
    { time := now
      refilled := refillTokens now s
      result := (send now params s).1
      after := (send now params s).2 } :: history (send now params s).2 calls

/-- How many calls pass the limiter from a time to another one. -/
def passed (sents : List Sent) (a b : ℚ) : ℕ :=
  sents.countP fun sent => sent.passes && decide (a ≤ sent.time) && decide ((sent.time : ℚ) ≤ b)

/-- The tokens are within their bounds. -/
def InBounds (s : RateLimiterState) : Prop := 0 ≤ s.tokens ∧ s.tokens ≤ rateLimit

/-- What the limiter promises. -/
structure BucketKept (sents : List Sent) : Prop where
  tokens : ∀ sent ∈ sents, InBounds sent.refilled ∧ InBounds sent.after
  passed : ∀ a b : ℚ, a ≤ b →
    (passed sents a b : ℚ) ≤ rateLimit + (b - a) * rateLimit / rateLimitWindowMs

/-! ## The bucket -/

/-- The tokens as a bucket. -/
def bucket (s : RateLimiterState) : Bucket ℚ := ⟨s.tokens, s.lastRefill⟩

/-- When the calls were, and which of them passed. -/
def course (sents : List Sent) : List (ℚ × Bool) :=
  sents.map fun sent => ((sent.time : ℚ), sent.passes)

variable {now : ℤ} {params : SendEmailParams} {s : RateLimiterState}
  {calls : List (ℤ × SendEmailParams)}

theorem validateParams_ne (params : SendEmailParams) :
    validateParams params ≠ .error rateLimitExceeded := by
  unfold validateParams
  split_ifs <;> exact nofun

/-- A call passes when there is anything left after the refill. -/
theorem passes_iff : (send now params s).1 ≠ .error rateLimitExceeded ↔
    0 < (refillTokens now s).tokens := by
  unfold send
  dsimp only
  split_ifs with hempty
  · simpa using hempty
  · simpa [validateParams_ne] using hempty

/-- **A call is a moment of the bucket.** -/
theorem after_send (now : ℤ) (params : SendEmailParams) (s : RateLimiterState) :
    bucket (send now params s).2 =
      (bucket s).after rateLimit (rateLimit / rateLimitWindowMs) now
        (decide ((send now params s).1 ≠ .error rateLimitExceeded)) := by
  simp only [passes_iff]
  unfold send
  dsimp only
  split_ifs with hempty
  · rw [decide_eq_false (not_lt.2 hempty)]
    simp [Bucket.after, Bucket.refill, bucket, refillTokens]
  · rw [decide_eq_true (not_le.1 hempty)]
    simp [Bucket.after, Bucket.refill, bucket, refillTokens]

/-! ## All calls -/

theorem passed_eq (sents : List Sent) (a b : ℚ) :
    passed sents a b = admittedIn (course sents) a b := by
  unfold passed admittedIn course
  rw [List.countP_map]
  rfl

/-- Each call is one of `send`. -/
theorem exists_of_mem_history {sent : Sent} (h : sent ∈ history s calls) :
    ∃ before params, sent.refilled = refillTokens sent.time before ∧
      sent.result = (send sent.time params before).1 ∧
      sent.after = (send sent.time params before).2 := by
  induction calls generalizing s with
  | nil => exact absurd h List.not_mem_nil
  | cons call calls ih =>
    rcases List.mem_cons.1 h with rfl | h
    · exact ⟨s, call.2, rfl, rfl, rfl⟩
    · exact ih h

theorem map_time_history (s : RateLimiterState) (calls : List (ℤ × SendEmailParams)) :
    (history s calls).map Sent.time = calls.map Prod.fst := by
  induction calls generalizing s with
  | nil => rfl
  | cons call calls ih => exact congrArg (call.1 :: ·) (ih _)

theorem ordered_course (htimes : (calls.map Prod.fst).Pairwise (· ≤ ·)) :
    Ordered (course (history s calls)) := by
  rw [← map_time_history s, List.pairwise_map] at htimes
  unfold Ordered course
  rw [List.pairwise_map]
  exact htimes.imp fun h => Int.cast_le.2 h

theorem le_course (hfrom : ∀ time ∈ calls.map Prod.fst, s.lastRefill ≤ time) :
    ∀ p ∈ course (history s calls), (bucket s).filled ≤ p.1 := by
  intro p hp
  obtain ⟨sent, hsent, rfl⟩ := List.mem_map.1 hp
  have htime : sent.time ∈ calls.map Prod.fst := by
    rw [← map_time_history s]
    exact List.mem_map_of_mem hsent
  exact Int.cast_le.2 (hfrom _ htime)

theorem course_history_cons (s : RateLimiterState) (call : ℤ × SendEmailParams)
    (calls : List (ℤ × SendEmailParams)) : course (history s (call :: calls)) =
      ((call.1 : ℚ), decide ((send call.1 call.2 s).1 ≠ .error rateLimitExceeded)) ::
        course (history (send call.1 call.2 s).2 calls) := rfl

/-- The bucket is in debt when the tokens are. -/
theorem covered_history (debt : ℚ) :
    (bucket s).Covered rateLimit (rateLimit / rateLimitWindowMs) debt
        (course (history s calls)) ↔
      ∀ sent ∈ history s calls, -debt ≤ sent.after.tokens := by
  induction calls generalizing s with
  | nil => simp [history, course, Bucket.Covered]
  | cons call calls ih =>
    rw [course_history_cons, Bucket.Covered, ← after_send, ih]
    simp [history, bucket]

/-- It affords a token unless there is only a part of one. -/
theorem affords_history :
    (bucket s).Affords rateLimit (rateLimit / rateLimitWindowMs) (course (history s calls)) ↔
      ∀ sent ∈ history s calls, ¬ (0 < sent.refilled.tokens ∧ sent.refilled.tokens < 1) := by
  induction calls generalizing s with
  | nil => simp [history, course, Bucket.Affords]
  | cons call calls ih =>
    rw [course_history_cons, Bucket.Affords, ← after_send, ih, decide_eq_true_eq, passes_iff]
    simp [history, bucket, Bucket.refill, refillTokens]

theorem rate_nonneg : 0 ≤ rateLimit / rateLimitWindowMs := by
  norm_num [rateLimit, rateLimitWindowMs]

/-- What a call takes. -/
theorem tokens_send (now : ℤ) (params : SendEmailParams) (s : RateLimiterState) :
    (send now params s).2.tokens = (refillTokens now s).tokens ∨
      0 < (refillTokens now s).tokens ∧
        (send now params s).2.tokens = (refillTokens now s).tokens - 1 := by
  unfold send
  dsimp only
  split_ifs with hempty
  · exact .inl rfl
  · exact .inr ⟨not_le.1 hempty, rfl⟩

/-- The tokens of a call are in their bounds when those behind it are not negative. -/
theorem inBounds_iff {sent : Sent} (h : sent ∈ history s calls) :
    InBounds sent.refilled ∧ InBounds sent.after ↔ 0 ≤ sent.after.tokens := by
  obtain ⟨before, params, hrefilled, -, hafter⟩ := exists_of_mem_history h
  have hfull : sent.refilled.tokens ≤ rateLimit := by
    rw [hrefilled]
    exact min_le_left ..
  have hless : sent.after.tokens ≤ sent.refilled.tokens := by
    rw [hafter, hrefilled]
    rcases tokens_send sent.time params before with hsame | ⟨-, htaken⟩ <;> linarith
  constructor
  · exact fun h => h.2.1
  · exact fun h => ⟨⟨h.trans hless, hfull⟩, h, hless.trans hfull⟩

/-- Never as much as a token is owed. -/
theorem covered_one (hs : -1 ≤ s.tokens) (htimes : (calls.map Prod.fst).Pairwise (· ≤ ·))
    (hfrom : ∀ time ∈ calls.map Prod.fst, s.lastRefill ≤ time) :
    (bucket s).Covered rateLimit (rateLimit / rateLimitWindowMs) 1 (course (history s calls)) := by
  induction calls generalizing s with
  | nil => trivial
  | cons call calls ih =>
    obtain ⟨hhead, htail⟩ := List.pairwise_cons.1 htimes
    have helapsed : s.lastRefill ≤ call.1 := hfrom call.1 (List.mem_cons_self ..)
    have hinflow : (0 : ℚ) ≤ ((call.1 : ℚ) - s.lastRefill) * (rateLimit / rateLimitWindowMs) :=
      mul_nonneg (sub_nonneg.2 (Int.cast_le.2 helapsed)) rate_nonneg
    have hrefill : -1 ≤ (refillTokens call.1 s).tokens :=
      le_min (by norm_num [rateLimit]) (by linarith)
    have hafter : -1 ≤ (send call.1 call.2 s).2.tokens := by
      rcases tokens_send call.1 call.2 s with hsame | ⟨hsome, htaken⟩ <;> linarith
    rw [course_history_cons, Bucket.Covered, ← after_send]
    refine ⟨hafter, ih hafter htail fun time htime => ?_⟩
    have hlast : (send call.1 call.2 s).2.lastRefill = call.1 := by
      unfold send
      dsimp only
      split_ifs <;> rfl
    rw [hlast]
    exact hhead time htime

/-- **In any interval** at most one email more than there should be passes. -/
theorem passed_le {start : ℤ} (htimes : (start :: calls.map Prod.fst).Pairwise (· ≤ ·)) {a b : ℚ}
    (hab : a ≤ b) : (passed (history (new start) calls) a b : ℚ) ≤
      rateLimit + 1 + (b - a) * (rateLimit / rateLimitWindowMs) := by
  obtain ⟨hfrom, htail⟩ := List.pairwise_cons.1 htimes
  have hcovered := covered_one (s := new start) (by norm_num [new, rateLimit]) htail hfrom
  rw [passed_eq]
  exact Bucket.admittedIn_le rate_nonneg (by norm_num [rateLimit]) hcovered
    (ordered_course htail) hab

/-- **The bucket is kept** exactly when no email is sent for a part of a token. -/
theorem bucketKept_iff {start : ℤ} {calls : List (ℤ × SendEmailParams)}
    (htimes : (start :: calls.map Prod.fst).Pairwise (· ≤ ·)) :
    BucketKept (history (new start) calls) ↔
      ∀ sent ∈ history (new start) calls,
        ¬ (0 < sent.refilled.tokens ∧ sent.refilled.tokens < 1) := by
  obtain ⟨hfrom, htail⟩ := List.pairwise_cons.1 htimes
  have hlimit : (0 : ℚ) ≤ rateLimit := by norm_num [rateLimit]
  have hordered : Ordered (course (history (new start) calls)) := ordered_course htail
  have hcovered : _ ↔ ∀ sent ∈ history (new start) calls, _ := covered_history 0
  rw [Bucket.covered_iff hlimit rate_nonneg hlimit hordered (le_course hfrom), affords_history,
    neg_zero] at hcovered
  rw [hcovered]
  constructor
  · intro h sent hsent
    exact (inBounds_iff hsent).1 (h.tokens sent hsent)
  · intro h
    refine ⟨fun sent hsent => (inBounds_iff hsent).2 (h sent hsent), fun a b hab => ?_⟩
    have hkept := (covered_history 0).2 fun sent hsent => neg_zero.le.trans (h sent hsent)
    have hbound := Bucket.admittedIn_le rate_nonneg (by rwa [neg_zero]) hkept hordered hab
    rw [passed_eq, mul_div_assoc]
    simpa using hbound

/-- A letter. -/
def letter : SendEmailParams :=
  { recipient := .one "a@b.c", subject := "Hello", text := some "Hello" }

/-- The theorem at work on three calls, two of them at once. -/
theorem bucketKept_iff_letter :
    BucketKept (history (new 0) [(600, letter), (600, letter), (1800, letter)]) ↔
      ∀ sent ∈ history (new 0) [(600, letter), (600, letter), (1800, letter)],
        ¬ (0 < sent.refilled.tokens ∧ sent.refilled.tokens < 1) :=
  bucketKept_iff (by decide)

/-- A hundred calls at once, and another one a millisecond later. -/
theorem not_bucketKept :
    ¬ ∀ (start : ℤ) (calls : List (ℤ × SendEmailParams)),
        (start :: calls.map Prod.fst).Pairwise (· ≤ ·) →
          BucketKept (history (new start) calls) := by
  intro h
  have hkept := h 0 (List.replicate 100 (0, letter) ++ [(1, letter)]) (by decide +kernel)
  have hbound := hkept.passed 0 1 zero_le_one
  have hpassed : passed (history (new 0) (List.replicate 100 (0, letter) ++ [(1, letter)])) 0 1 =
      101 := by
    decide +kernel
  rw [hpassed] at hbound
  norm_num [rateLimit, rateLimitWindowMs] at hbound

end EmailService

end EnterpriseSystem.ExternalServices
