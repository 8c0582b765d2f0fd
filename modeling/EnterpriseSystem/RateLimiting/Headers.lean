import EnterpriseSystem.RateLimiting.ThrottlerGuard

/-!
# What the rate limit tells its clients

The `Retry-After` and `X-RateLimit-Reset` that `ThrottlerGuard` of
`src/security/rate-limiting/throttler.guard.ts` sends, and what becomes of the requests that
go by them.

* `ThrottlerGuard.respond` — the response, with the clock that `setRateLimitHeaders` reads.
* `RetryTruthful`, `ResetTruthful` — what the two headers promise; `InStep` — what keeps
  them truthful.
* `canActivate_cases` — a request meets a full window, or is counted in one.
* `store_after_quiet` — without requests of a key its window stays, or is over.
* `headersTruthful_iff` — along any timeline, when the promises are kept.
-/

namespace EnterpriseSystem.RateLimiting

open Reactive FixedWindow

/-! ## Responses -/

/-- The headers of a response. -/
def Decision.headers? : Decision → Option RateLimitHeaders
  | admitted headers => some headers
  | tooManyRequests headers _ => some headers
  | typeError => none

/-- `setRateLimitHeaders` reads the clock itself. -/
def Decision.stamped (windowSeconds : ℚ) (stamp : Millis) : Decision → Decision
  | admitted headers =>
    .admitted (ThrottlerGuard.headers headers.limit headers.remaining windowSeconds stamp)
  | decision => decision

namespace ThrottlerGuard

/-- The response to a request; `stamp` is the second reading of the clock. -/
def respond (g : ThrottlerGuard) (c : Context) (now stamp : Millis) : Decision :=
  (g.canActivate c now).1.stamped (g.limits c).windowSeconds stamp

/-- A request of `key`. -/
def IsRequestOf (g : ThrottlerGuard) (key : String) (e : Event) : Prop :=
  ∃ c now, e = .request c now ∧ g.key c = some key

/-- `Retry-After` is truthful: that many seconds later, or any whole number of milliseconds
after that, the next request of the key is admitted. -/
def RetryTruthful (g : ThrottlerGuard) (key : String) (c : Context) (now stamp : Millis) : Prop :=
  ∀ headers r, (g.respond c now stamp).headers? = some headers → headers.retryAfter = some r →
    ∀ quiet c' (wait : ℕ), Timeline (.request c now :: (quiet ++ [.request c' (now + wait)])) →
      (∀ e ∈ quiet, ¬ g.IsRequestOf key e) → g.key c' = some key → 1000 * r ≤ wait →
        (((g.step (.request c now)).2.after quiet).canActivate c' (now + wait)).1.isAdmitted = true

/-- `X-RateLimit-Reset` is truthful: it is the reset time of the window that the request is
counted in. -/
def ResetTruthful (g : ThrottlerGuard) (key : String) (c : Context) (now stamp : Millis) : Prop :=
  ∃ headers entry, (g.respond c now stamp).headers? = some headers ∧
    (g.step (.request c now)).2.store key = some entry ∧
    headers.reset = ⌈entry.resetTime / 1000⌉

/-- `P` is so of every request of a key along a timeline whose events come with the second
readings of the clock. -/
def AlongRequests (g : ThrottlerGuard) (key : String) (events : List (Event × Millis))
    (P : ThrottlerGuard → Context → Millis → Millis → Prop) : Prop :=
  ∀ pre c now stamp post, events = pre ++ (.request c now, stamp) :: post →
    (g.after (pre.map Prod.fst)).key c = some key → P (g.after (pre.map Prod.fst)) c now stamp

/-! ## The window of a request -/

/-- The window of the key is open and has no room. -/
def Full (g : ThrottlerGuard) (key : String) (limit : ℕ) (now : Millis) : Prop :=
  ∃ entry, g.store key = some entry ∧ ¬ entry.resetTime < now ∧ limit ≤ entry.count

/-- The reset time of the window that is open, or else of the one that opens now. -/
def windowEnd (g : ThrottlerGuard) (key : String) (windowMs now : Millis) : Millis :=
  match g.store key with
  | none => now + windowMs
  | some entry => if entry.resetTime < now then now + windowMs else entry.resetTime

/-- What keeps the headers of a request truthful. -/
structure InStep (g : ThrottlerGuard) (key : String) (c : Context) (now stamp : Millis) : Prop where
  /-- It is not refused a whole number of seconds before the reset time. -/
  refused : g.Full key (g.limits c).limit now →
    ∀ seconds : ℤ, g.windowEnd key (g.limits c).windowMs now - now ≠ 1000 * seconds
  /-- The window that it is counted in ends in the same second as one from the second reading
  of the clock on. -/
  counted : ¬ g.Full key (g.limits c).limit now →
    ⌈(stamp + (g.limits c).windowMs) / 1000⌉ =
      ⌈g.windowEnd key (g.limits c).windowMs now / 1000⌉

variable {g : ThrottlerGuard} {key : String} {c : Context} {now stamp : Millis}

variable (now) in
/-- **A request** meets a full window, or is counted in one. -/
theorem canActivate_cases (hkey : g.key c = some key) :
    (∃ headers problem, g.Full key (g.limits c).limit now ∧
      g.canActivate c now = (.tooManyRequests headers problem, g) ∧
      headers.retryAfter = some ⌈(g.windowEnd key (g.limits c).windowMs now - now) / 1000⌉ ∧
      headers.reset = ⌈g.windowEnd key (g.limits c).windowMs now / 1000⌉) ∨
    (∃ headers entry, ¬ g.Full key (g.limits c).limit now ∧
      g.canActivate c now = (.admitted headers, g.set key entry) ∧
      headers.retryAfter = none ∧
      entry.resetTime = g.windowEnd key (g.limits c).windowMs now) := by
  unfold canActivate count windowEnd Full
  rw [hkey]
  dsimp only
  cases g.store key with
  | none => exact .inr ⟨_, _, by simp, rfl, rfl, rfl⟩
  | some entry =>
    dsimp only
    split_ifs with hover hfull
    · exact .inr ⟨_, _, by simp [hover], rfl, rfl, rfl⟩
    · exact .inl ⟨_, _, ⟨entry, rfl, hover, hfull⟩, rfl, rfl, rfl⟩
    · exact .inr ⟨_, _, by simp [not_le.1 hfull], rfl, rfl, rfl⟩

/-- A request that does not meet a full window is admitted. -/
theorem isAdmitted_iff (hkey : g.key c = some key) :
    (g.canActivate c now).1.isAdmitted = true ↔ ¬ g.Full key (g.limits c).limit now := by
  rcases canActivate_cases now hkey with
    ⟨headers, problem, hfull, hrefused, -⟩ | ⟨headers, entry, hroom, hadmitted, -⟩
  · simp [hrefused, hfull, Decision.isAdmitted]
  · simp [hadmitted, hroom, Decision.isAdmitted]

/-! ## Between two requests -/

variable {e : Event} {quiet : List Event}

theorem after_cons (g : ThrottlerGuard) (e : Event) (events : List Event) :
    g.after (e :: events) = (g.step e).2.after events := rfl

theorem key_after (g : ThrottlerGuard) (events : List Event) (c : Context) :
    (g.after events).key c = g.key c := by
  induction events generalizing g with
  | nil => rfl
  | cons e events ih => rw [after_cons, ih, key_step]

theorem isRequestOf_step (e' : Event) : (g.step e).2.IsRequestOf key e' ↔ g.IsRequestOf key e' := by
  unfold IsRequestOf
  simp only [key_step]

/-- An event that is no request of the key leaves its window, or forgets it once it is over. -/
theorem store_step_quiet (h : ¬ g.IsRequestOf key e) :
    (g.step e).2.store key = g.store key ∨
      (g.step e).2.store key = none ∧
        ∃ entry, g.store key = some entry ∧ entry.resetTime < e.time := by
  have hheld : g.HeldTo key 0 0 [e] := fun c now hmem hkey =>
    absurd ⟨c, now, (List.mem_singleton.1 hmem).symm, hkey⟩ h
  have hnot : g.admits key e = false := by
    cases e with
    | cleanup now => rfl
    | request c now =>
      have hkey : g.key c ≠ some key := fun hkey => h ⟨c, now, rfl, hkey⟩
      simp [admits, hkey]
  have hmove := move_step hheld
  rw [hnot] at hmove
  generalize (g.step e).2.store key = after at hmove ⊢
  generalize g.store key = before at hmove ⊢
  cases hmove with
  | rests => exact .inl rfl
  | expires hover => exact .inr ⟨rfl, _, rfl, hover⟩

/-- **Without requests of the key** its window stays, or is over. -/
theorem store_after_quiet {last : Millis} (h : ∀ e ∈ quiet, ¬ g.IsRequestOf key e)
    (htimes : ∀ e ∈ quiet, e.time ≤ last) :
    (g.after quiet).store key = g.store key ∨
      (g.after quiet).store key = none ∧
        ∃ entry, g.store key = some entry ∧ entry.resetTime < last := by
  induction quiet generalizing g with
  | nil => exact .inl rfl
  | cons e quiet ih =>
    have hrest := ih (g := (g.step e).2)
      (fun e' he' => (isRequestOf_step e').not.2 (h e' (List.mem_cons_of_mem _ he')))
      fun e' he' => htimes e' (List.mem_cons_of_mem _ he')
    rw [after_cons]
    have hhead := store_step_quiet (h e (List.mem_cons_self ..))
    rcases hhead with hstays | ⟨hforgets, entry, hentry, hover⟩
    · rwa [hstays] at hrest
    · refine .inr ⟨?_, entry, hentry, hover.trans_le (htimes e (List.mem_cons_self ..))⟩
      rcases hrest with hsame | ⟨hnone, -⟩
      · rw [hsame, hforgets]
      · exact hnone

/-- Once its window is over, a request of the key is admitted. -/
theorem isAdmitted_after_quiet {entry : RateLimitEntry} {last : Millis}
    (hentry : g.store key = some entry) (hover : entry.resetTime < last)
    (hquiet : ∀ e ∈ quiet, ¬ g.IsRequestOf key e) (htimes : ∀ e ∈ quiet, e.time ≤ last)
    (hkey : g.key c = some key) : ((g.after quiet).canActivate c last).1.isAdmitted = true := by
  rw [isAdmitted_iff (by rw [key_after, hkey])]
  rintro ⟨entry', hentry', hopen, -⟩
  rcases store_after_quiet hquiet htimes with hsame | ⟨hnone, -⟩
  · rw [hsame, hentry] at hentry'
    cases hentry'
    exact hopen hover
  · rw [hnone] at hentry'
    exact nomatch hentry'

/-! ## The two headers -/

/-- Waiting as told goes beyond the reset time unless it ends there. -/
theorem lt_add_wait {reset : Millis} {wait : ℕ}
    (h : ∀ seconds : ℤ, reset - now ≠ 1000 * seconds)
    (hwait : 1000 * ⌈(reset - now) / 1000⌉ ≤ (wait : ℤ)) : reset < now + wait := by
  have hceil := (div_le_iff₀ (by norm_num)).1 (Int.le_ceil ((reset - now) / 1000))
  have hwait' : (1000 : ℚ) * ⌈(reset - now) / 1000⌉ ≤ wait := by exact_mod_cast hwait
  have hne := h ⌈(reset - now) / 1000⌉
  have hlt : reset - now < 1000 * ⌈(reset - now) / 1000⌉ := lt_of_le_of_ne (by linarith) hne
  linarith

/-- **`Retry-After`** is truthful unless it ends at the reset time itself. -/
theorem retryTruthful_iff (hkey : g.key c = some key) :
    g.RetryTruthful key c now stamp ↔
      (g.Full key (g.limits c).limit now →
        ∀ seconds : ℤ, g.windowEnd key (g.limits c).windowMs now - now ≠ 1000 * seconds) := by
  rcases canActivate_cases now hkey with
    ⟨headers, problem, hfull, hrefused, hretry, -⟩ | ⟨headers, entry, hroom, hadmitted, hretry, -⟩
  · have hrespond : (g.respond c now stamp).headers? = some headers := by
      rw [respond, hrefused]
      rfl
    have hstep : (g.step (.request c now)).2 = g := congrArg Prod.snd hrefused
    obtain ⟨entry, hentry, hopen, hcount⟩ := hfull
    have hend : g.windowEnd key (g.limits c).windowMs now = entry.resetTime := by
      rw [windowEnd, hentry]
      exact if_neg hopen
    rw [hend] at hretry ⊢
    constructor
    · -- the same request, at the reset time
      intro h _ seconds hseconds
      have hr : headers.retryAfter = some seconds := by
        rw [hretry, hseconds, mul_div_cancel_left₀ _ (by norm_num), Int.ceil_intCast]
      have hnonneg : 0 ≤ seconds := by
        have hle : (0 : ℚ) ≤ 1000 * seconds := hseconds ▸ sub_nonneg.2 (not_lt.1 hopen)
        exact_mod_cast (mul_nonneg_iff_of_pos_left (by norm_num)).1 hle
      obtain ⟨n, rfl⟩ := Int.eq_ofNat_of_zero_le hnonneg
      have hreset : now + (1000 * n : ℕ) = entry.resetTime := by
        push_cast at hseconds ⊢
        linarith
      have hadmitted := h headers n hrespond hr [] c (1000 * n)
        (List.pairwise_pair.2 (le_add_of_nonneg_right (Nat.cast_nonneg _))) (by simp) hkey
        (by push_cast; exact le_rfl)
      rw [hstep, hreset] at hadmitted
      refine (isAdmitted_iff hkey).1 hadmitted ⟨entry, hentry, lt_irrefl _, hcount⟩
    · intro h headers' r hheaders' hr quiet c' wait htimes hquiet hkey' hwait
      obtain rfl : headers = headers' := Option.some.inj (hrespond.symm.trans hheaders')
      obtain rfl : _ = r := Option.some.inj (hretry.symm.trans hr)
      have hlast : ∀ e ∈ quiet, e.time ≤ now + wait := by
        intro e he
        exact (List.pairwise_append.1 (List.pairwise_cons.1 htimes).2).2.2 e he _
          (List.mem_singleton_self _)
      have hover := lt_add_wait (h ⟨entry, hentry, hopen, hcount⟩) hwait
      rw [hstep]
      exact isAdmitted_after_quiet hentry hover hquiet hlast hkey'
  · have hrespond : ∀ headers', (g.respond c now stamp).headers? = some headers' →
        headers'.retryAfter = none := by
      rw [respond, hadmitted]
      rintro _ ⟨⟩
      rfl
    constructor
    · exact fun _ hfull => absurd hfull hroom
    · intro _ headers' r hheaders' hr
      rw [hrespond headers' hheaders'] at hr
      exact nomatch hr

/-- **`X-RateLimit-Reset`** is truthful where a window that is read off the second clock would
end in the same second. -/
theorem resetTruthful_iff (hkey : g.key c = some key) :
    g.ResetTruthful key c now stamp ↔
      (¬ g.Full key (g.limits c).limit now →
        ⌈(stamp + (g.limits c).windowMs) / 1000⌉ =
          ⌈g.windowEnd key (g.limits c).windowMs now / 1000⌉) := by
  rcases canActivate_cases now hkey with
    ⟨headers, problem, hfull, hrefused, -, hreset⟩ | ⟨headers, entry, hroom, hadmitted, -, hend⟩
  · obtain ⟨entry, hentry, hopen, -⟩ := id hfull
    constructor
    · exact fun _ hroom => absurd hfull hroom
    · intro _
      refine ⟨headers, entry, ?_, ?_, ?_⟩
      · rw [respond, hrefused]
        rfl
      · show (g.canActivate c now).2.store key = some entry
        rwa [hrefused]
      · rw [hreset, windowEnd, hentry]
        dsimp only
        rw [if_neg hopen]
  · have hrespond : (g.respond c now stamp).headers? =
        some (ThrottlerGuard.headers headers.limit headers.remaining (g.limits c).windowSeconds
          stamp) := by
      rw [respond, hadmitted]
      rfl
    have hstore : (g.step (.request c now)).2.store key = some entry := by
      show (g.canActivate c now).2.store key = some entry
      rw [hadmitted, store_set_self]
    rw [← hend]
    constructor
    · rintro ⟨headers', entry', hheaders', hentry', hreset⟩ _
      rw [hrespond] at hheaders'
      rw [hstore] at hentry'
      cases hheaders'
      cases hentry'
      exact hreset
    · exact fun h => ⟨_, entry, hrespond, hstore, h hroom⟩

end ThrottlerGuard

/-! ## Along a timeline -/

/-- **The two headers are truthful** along a timeline exactly when every request is in step. -/
theorem headersTruthful_iff (g : ThrottlerGuard) (key : String) (events : List (Event × Millis)) :
    g.AlongRequests key events (fun g c now stamp =>
        g.RetryTruthful key c now stamp ∧ g.ResetTruthful key c now stamp) ↔
      g.AlongRequests key events fun g c now stamp => g.InStep key c now stamp := by
  constructor
  · intro h pre c now stamp post hevents hkey
    obtain ⟨hretry, hreset⟩ := h pre c now stamp post hevents hkey
    exact ⟨(ThrottlerGuard.retryTruthful_iff hkey).1 hretry,
      (ThrottlerGuard.resetTruthful_iff hkey).1 hreset⟩
  · intro h pre c now stamp post hevents hkey
    obtain ⟨hrefused, hcounted⟩ := h pre c now stamp post hevents hkey
    exact ⟨(ThrottlerGuard.retryTruthful_iff hkey).2 hrefused,
      (ThrottlerGuard.resetTruthful_iff hkey).2 hcounted⟩

/-- Three requests of the clock's own times: a window until 1000, the second request half a
second into it, and the third at its end. -/
def halfSeconds : List Event :=
  [.request (pair "::1") 0, .request (pair "::1") 500, .request (pair "::1") 1000]

/-- The second request is told that the window ends a second later than it does, and the third
one to come back at once, when it is refused again. -/
theorem not_headersTruthful :
    (¬ ∀ (defaultLimit : ℕ) (defaultWindow : ℚ) (key : String) (limit : ℕ) (window : Millis)
        (events : List Event), Timeline events → 1 ≤ limit →
          (ThrottlerGuard.new defaultLimit defaultWindow).HeldTo key limit window events →
            (ThrottlerGuard.new defaultLimit defaultWindow).AlongRequests key
              (events.map fun e => (e, e.time))
              fun g c now stamp => g.RetryTruthful key c now stamp) ∧
      ¬ ∀ (defaultLimit : ℕ) (defaultWindow : ℚ) (key : String) (limit : ℕ) (window : Millis)
        (events : List Event), Timeline events → 1 ≤ limit →
          (ThrottlerGuard.new defaultLimit defaultWindow).HeldTo key limit window events →
            (ThrottlerGuard.new defaultLimit defaultWindow).AlongRequests key
              (events.map fun e => (e, e.time))
              fun g c now stamp => g.ResetTruthful key c now stamp := by
  have htimes : Timeline halfSeconds := by
    show List.Pairwise _ _
    decide +kernel
  have hheld : (ThrottlerGuard.new 100 60).HeldTo "rl:ip:::1" 2 1000 halfSeconds := by
    intro c now hmem _
    have hcustom : c.customLimit = some ⟨2, 1, none⟩ := by
      simp only [halfSeconds, List.mem_cons, Event.request.injEq, List.not_mem_nil, or_false]
        at hmem
      rcases hmem with ⟨rfl, -⟩ | ⟨rfl, -⟩ | ⟨rfl, -⟩ <;> rfl
    unfold ThrottlerGuard.limits Limits.windowMs
    rw [hcustom]
    exact ⟨rfl, by norm_num⟩
  constructor
  · intro h
    have htruthful := h 100 60 "rl:ip:::1" 2 1000 halfSeconds htimes (by decide) hheld
      [(.request (pair "::1") 0, 0), (.request (pair "::1") 500, 500)] (pair "::1") 1000 1000 []
      rfl (by decide +kernel)
    have hadmitted := htruthful ⟨2, 0, 1, some 0⟩ 0 (by decide +kernel) rfl [] (pair "::1") 0
      (List.pairwise_pair.2 (by decide +kernel)) (by simp) (by decide +kernel) (by decide)
    exact absurd hadmitted (by decide +kernel)
  · intro h
    obtain ⟨headers, entry, hheaders, hentry, hreset⟩ :=
      h 100 60 "rl:ip:::1" 2 1000 halfSeconds htimes (by decide) hheld
        [(.request (pair "::1") 0, 0)] (pair "::1") 500 500 [(.request (pair "::1") 1000, 1000)]
        rfl (by decide +kernel)
    have htold : (((ThrottlerGuard.new 100 60).after [.request (pair "::1") 0]).respond
        (pair "::1") 500 500).headers? = some ⟨2, 0, 2, none⟩ := by
      decide +kernel
    have hstored : (((ThrottlerGuard.new 100 60).after [.request (pair "::1") 0]).step
        (.request (pair "::1") 500)).2.store "rl:ip:::1" = some ⟨2, 1000⟩ := by
      decide +kernel
    obtain rfl := Option.some.inj (htold.symm.trans hheaders)
    obtain rfl := Option.some.inj (hstored.symm.trans hentry)
    exact absurd hreset (by decide +kernel)

end EnterpriseSystem.RateLimiting
