import EnterpriseSystem.Database.Security

/-!
# The token bucket

`check_rate_limit` in closed form, and how many calls it lets through in the
interval after a refill.

* `takeToken` — the row a call leaves behind, as a function of the row it finds;
  `execute_checkRateLimit` says that the function does exactly this and answers
  whether the tokens left are not negative.
* `Admits` — when a call passes, in terms of the row it finds; `execute_rateLimited`
  is what a function with the check in front of it does.
* `limits_iff` — within one interval the bucket never runs dry: a call that
  finds no token leaves the row as it is and passes, because none is not
  negative.  So at most `M` calls pass exactly when no more than `M` are made,
  except on a row that was refilled with nothing (`Worthless`).
-/

namespace EnterpriseSystem

open Relational Concurrency

/-! ## One call -/

/-- The row a call leaves behind, given the one it finds. -/
def takeToken (now : Timestamp) (key : String) (maxTokens refillRate : Int4) :
    Option RateLimit → Except PgError RateLimit
  | none => newRateLimit now (some key) (some maxTokens) (some refillRate)
  | some r => if 0 < r.tokens.1 then r.consume now (some maxTokens) else r.refill now

/-- When a call passes: there is no row yet, or a token in it, or the refill
that is due provides one, or the row is at zero. -/
def Admits (now : Timestamp) : Option RateLimit → Prop
  | none => True
  | some r => 0 < r.tokens.1 ∨ if r.isStale now then 1 ≤ r.maxTokens.1 else r.tokens.1 = 0

section

variable {now : Timestamp} {key : String} {maxTokens refillRate : Int4}

theorem decrement_some {a : Int4} (h : -2 ^ 31 < a.1) :
    ∃ b : Int4, decrement (some a) = .ok (some b) ∧ b.1 = a.1 - 1 := by
  have hsub := Int4.sub_eq_some (a := a) (b := ⟨1, by decide⟩) (by simp only; omega)
    (by have := a.2.2; simp only; omega)
  exact ⟨_, by rw [decrement, hsub], rfl⟩

variable (now key refillRate) in
theorem newRateLimit_ok (hmax : 1 ≤ maxTokens.1) :
    ∃ r, newRateLimit now (some key) (some maxTokens) (some refillRate) = .ok r ∧ r.key = key ∧
      r.tokens.1 = maxTokens.1 - 1 ∧ r.maxTokens = maxTokens ∧ r.refillInterval = oneMinute ∧
      r.lastRefill = now := by
  obtain ⟨b, hb, hval⟩ := decrement_some (a := maxTokens) (by omega)
  refine ⟨{
    key, maxTokens, refillRate
    tokens := b
    refillInterval := oneMinute
    lastRefill := now
    createdAt := now
    updatedAt := now }, ?_, rfl, hval, rfl, rfl, rfl⟩
  simp only [newRateLimit, hb, notNull]
  rfl

variable (now) in
theorem consume_ok {r : RateLimit} (hmax : 1 ≤ maxTokens.1) (htokens : 0 < r.tokens.1) :
    ∃ r', r.consume now (some maxTokens) = .ok r' ∧ r'.key = r.key ∧
      r'.tokens.1 = (if r.isStale now then maxTokens.1 else r.tokens.1) - 1 ∧
      r'.maxTokens = r.maxTokens ∧ r'.refillInterval = r.refillInterval ∧
      r'.lastRefill = if r.isStale now then now else r.lastRefill := by
  have hsome : (if r.isStale now then some maxTokens else some r.tokens) =
      some (if r.isStale now then maxTokens else r.tokens) := by
    split <;> rfl
  obtain ⟨b, hb, hval⟩ :=
    decrement_some (a := if r.isStale now then maxTokens else r.tokens) (by split <;> omega)
  refine ⟨{ r with
    tokens := b
    lastRefill := if r.isStale now then now else r.lastRefill
    updatedAt := now }, ?_, rfl, ?_, rfl, rfl, rfl⟩
  · simp only [RateLimit.consume, hsome, hb, notNull]
    rfl
  · rw [hval]
    split <;> rfl

variable (now) in
theorem refill_ok {r : RateLimit} (hmax : r.isStale now → -2 ^ 31 < r.maxTokens.1) :
    ∃ r', r.refill now = .ok r' ∧ r'.key = r.key ∧
      r'.tokens.1 = (if r.isStale now then r.maxTokens.1 - 1 else r.tokens.1) ∧
      r'.maxTokens = r.maxTokens ∧ r'.refillInterval = r.refillInterval ∧
      r'.lastRefill = if r.isStale now then now else r.lastRefill := by
  by_cases hstale : r.isStale now = true
  · obtain ⟨b, hb, hval⟩ := decrement_some (hmax hstale)
    refine ⟨{ r with tokens := b, lastRefill := now }, ?_, rfl, ?_, rfl, rfl, ?_⟩
    · simp only [RateLimit.refill, hstale, if_true, hb, notNull]
      rfl
    · simp only [hstale, if_true]
      exact hval
    · simp [hstale]
  · refine ⟨r, ?_, rfl, ?_, rfl, rfl, ?_⟩
    · simp only [RateLimit.refill, hstale, notNull]
      rfl
    · simp [hstale]
    · simp [hstale]

variable (now maxTokens refillRate) in
theorem takeToken_key {row : Option RateLimit} (hrow : ∀ r ∈ row, r.key = key) {r' : RateLimit}
    (h : takeToken now key maxTokens refillRate row = .ok r') : r'.key = key := by
  cases row with
  | none =>
    obtain ⟨_, _, h⟩ := bind_eq_ok.1 h
    obtain ⟨k, hk, h⟩ := bind_eq_ok.1 h
    obtain ⟨_, _, h⟩ := bind_eq_ok.1 h
    obtain ⟨_, _, h⟩ := bind_eq_ok.1 h
    obtain ⟨_, _, h⟩ := bind_eq_ok.1 h
    cases hk
    cases h
    rfl
  | some r =>
    have hkey : r'.key = r.key := by
      rw [takeToken] at h
      split at h
      all_goals
        obtain ⟨_, _, h⟩ := bind_eq_ok.1 h
        obtain ⟨_, _, h⟩ := bind_eq_ok.1 h
        cases h
        rfl
    exact hkey.trans (hrow r rfl)

/-- The second half of `check_rate_limit`, when the `UPDATE` has matched no row. -/
theorem execute_checkRateLimit_of_none {ctx : Context} {db : Db}
    (h : spendable (some key) db = none) :
    execute Db.apply (checkRateLimit ctx (some key) (some maxTokens) (some refillRate)) db =
      execute Db.apply (do
        createOrRefill ctx.now (some key) (some maxTokens) (some refillRate)
        let tokens ← select fun db => ((some key).bind db.rateLimits.get?).map (·.tokens)
        return tokens.map fun t => decide (0 ≤ t.1)) db := by
  have hconsume : execute Db.apply (consumeToken ctx.now (some key) (some maxTokens)) db =
      .ok (none, db) := by
    rw [consumeToken, execute_statement, h]
    rfl
  rw [checkRateLimit, execute_bind, hconsume]

/-- The final re-read answers for the row the insertion has left. -/
theorem execute_createOrRefill {ctx : Context} {db : Db} {r : RateLimit} (hkey : r.key = key)
    (h : execute Db.apply (createOrRefill ctx.now (some key) (some maxTokens) (some refillRate))
      db = .ok ((), db.apply (.rateLimit r))) :
    execute Db.apply (do
        createOrRefill ctx.now (some key) (some maxTokens) (some refillRate)
        let tokens ← select fun db => ((some key).bind db.rateLimits.get?).map (·.tokens)
        return tokens.map fun t => decide (0 ≤ t.1)) db =
      .ok (some (decide (0 ≤ r.tokens.1)), db.apply (.rateLimit r)) := by
  have hget : (db.apply (.rateLimit r)).rateLimits.get? key = some r :=
    hkey ▸ Table.get?_put_self _ r
  rw [execute_bind, h]
  simp only [execute_bind, execute_select, Option.bind_some, hget]
  rfl

/-- **`check_rate_limit` in closed form**: it replaces the row and answers
whether the tokens left are not negative. -/
theorem execute_checkRateLimit (ctx : Context) (db : Db) (hmax : 1 ≤ maxTokens.1) :
    (checkRateLimit ctx (some key) (some maxTokens) (some refillRate)).exec db =
      match takeToken ctx.now key maxTokens refillRate (db.rateLimits.get? key) with
      | .ok r => .ok (some (decide (0 ≤ r.tokens.1)), db.apply (.rateLimit r))
      | .error e => .error e := by
  unfold Rpc.exec
  obtain ⟨new, hnew, hnewKey, -⟩ :=
    newRateLimit_ok ctx.now key refillRate hmax
  cases hrow : db.rateLimits.get? key with
  | none =>
    rw [execute_checkRateLimit_of_none (by simp [spendable, hrow]), takeToken, hnew]
    refine execute_createOrRefill hnewKey ?_
    rw [createOrRefill, execute_statement]
    simp only [hnew, bind, Except.bind, hnewKey, hrow]
    rfl
  | some r =>
    have hkey : r.key = key := Table.key_of_get? hrow
    by_cases htokens : 0 < r.tokens.1
    · obtain ⟨r', hconsume, -, hval, -⟩ := consume_ok ctx.now hmax htokens
      have hnonneg : 0 ≤ r'.tokens.1 := by
        rw [hval]
        split <;> omega
      have hspend : spendable (some key) db = some r := by simp [spendable, hrow, htokens]
      have hupdate : execute Db.apply (consumeToken ctx.now (some key) (some maxTokens)) db =
          .ok (some r'.tokens, db.apply (.rateLimit r')) := by
        rw [consumeToken, execute_statement, hspend]
        simp only [hconsume]
        rfl
      rw [checkRateLimit, execute_bind, hupdate, takeToken, if_pos htokens, hconsume]
      simp only [hnonneg, decide_true]
      rfl
    · have hstatement : execute Db.apply
          (createOrRefill ctx.now (some key) (some maxTokens) (some refillRate)) db =
            match r.refill ctx.now with
            | .ok r' => .ok ((), db.apply (.rateLimit r'))
            | .error e => .error e := by
        rw [createOrRefill, execute_statement]
        simp only [hnew, bind, Except.bind, hnewKey, hrow]
        cases r.refill ctx.now <;> rfl
      rw [execute_checkRateLimit_of_none (by simpa [spendable, hrow] using htokens), takeToken,
        if_neg htokens]
      cases hrefill : r.refill ctx.now with
      | error e =>
        rw [execute_bind, hstatement, hrefill]
      | ok r' =>
        have hkey' : r'.key = key := by
          have hrows : ∀ r' ∈ some r, r'.key = key := fun _ h => by cases h; exact hkey
          refine takeToken_key ctx.now maxTokens refillRate hrows ?_
          rw [takeToken, if_neg htokens, hrefill]
        exact execute_createOrRefill hkey' (by rw [hstatement, hrefill])

variable (refillRate) in
/-- **When a call passes.** -/
theorem checkRateLimit_passes_iff (ctx : Context) (db : Db) (hmax : 1 ≤ maxTokens.1) :
    (∃ db', (checkRateLimit ctx (some key) (some maxTokens) (some refillRate)).exec db =
      .ok (some true, db')) ↔ Admits ctx.now (db.rateLimits.get? key) := by
  rw [execute_checkRateLimit ctx db hmax]
  cases hrow : db.rateLimits.get? key with
  | none =>
    obtain ⟨new, hnew, -, htokens, -⟩ :=
      newRateLimit_ok ctx.now key refillRate hmax
    simp only [takeToken, hnew, Admits, iff_true]
    exact ⟨_, by rw [htokens, decide_eq_true (by omega)]⟩
  | some r =>
    rw [takeToken, Admits]
    by_cases htokens : 0 < r.tokens.1
    · obtain ⟨r', hconsume, -, hval, -⟩ := consume_ok ctx.now hmax htokens
      have hnonneg : 0 ≤ r'.tokens.1 := by
        rw [hval]
        split <;> omega
      simp only [if_true, hconsume, htokens, true_or, iff_true]
      exact ⟨_, by rw [decide_eq_true hnonneg]⟩
    · rw [if_neg htokens]
      simp only [htokens, false_or]
      by_cases hfull : r.isStale ctx.now → -2 ^ 31 < r.maxTokens.1
      · obtain ⟨r', hrefill, -, hval, -⟩ := refill_ok ctx.now hfull
        simp only [hrefill, Except.ok.injEq, Prod.mk.injEq, Option.some.injEq, decide_eq_true_eq,
          exists_eq_right', hval]
        split <;> omega
      · -- the refill itself is out of range
        have hstale : r.isStale ctx.now = true := by
          by_contra hc
          exact hfull fun h => absurd h hc
        have hmin : r.maxTokens.1 = -2 ^ 31 := by
          have := r.maxTokens.2.1
          have : ¬ -2 ^ 31 < r.maxTokens.1 := fun h => hfull fun _ => h
          omega
        have hrange : decrement (some r.maxTokens) = .error .numericValueOutOfRange := by
          have hsub : r.maxTokens.sub ⟨1, by decide⟩ = none := dif_neg (by simp only; omega)
          rw [decrement, hsub]
        have hrefill : r.refill ctx.now = .error .numericValueOutOfRange := by
          simp only [RateLimit.refill, hstale, if_true, hrange]
          rfl
        simp only [hrefill, hstale, if_true]
        constructor
        · rintro ⟨_, h⟩
          cases h
        · intro h
          omega

variable (maxTokens refillRate) in
theorem admits_iff (ctx : Context) (db : Db) (hmax : 1 ≤ maxTokens.1) :
    Admits ctx.now (db.rateLimits.get? key) ↔
      ∃ row, takeToken ctx.now key maxTokens refillRate (db.rateLimits.get? key) = .ok row ∧
        0 ≤ row.tokens.1 := by
  rw [← checkRateLimit_passes_iff refillRate ctx db hmax,
    execute_checkRateLimit ctx db hmax]
  cases takeToken ctx.now key maxTokens refillRate (db.rateLimits.get? key) with
  | error e => simp
  | ok row => simp

variable (maxTokens) in
/-- **The check in front of a function** costs the call the row of its bucket,
and lets it pass when the tokens left are not negative. -/
theorem execute_rateLimited {α : Type} {ctx : Context} {db : Db} {refuse : Rpc Unit} {p : Rpc α}
    {r : α × Db} (hmax : 1 ≤ maxTokens.1) (hrefuse : ∀ db r, refuse.exec db ≠ .ok r) :
    Rpc.exec (do
      let allowed ← checkRateLimit ctx (some key) (some maxTokens) (some refillRate)
      onlyIf allowed.not.Holds refuse
      p) db = .ok r ↔
      ∃ row, takeToken ctx.now key maxTokens refillRate (db.rateLimits.get? key) = .ok row ∧
        0 ≤ row.tokens.1 ∧ p.exec (db.apply (.rateLimit row)) = .ok r := by
  obtain ⟨x, db'⟩ := r
  have hcheck : (checkRateLimit ctx (some key) (some maxTokens) (some refillRate)).exec db = _ :=
    execute_checkRateLimit ctx db hmax
  unfold Rpc.exec at *
  rw [execute_bind, hcheck]
  cases takeToken ctx.now key maxTokens refillRate (db.rateLimits.get? key) with
  | error e => simp
  | ok row =>
    simp only [execute_bind_eq_ok, execute_onlyIf_eq_ok_of_raises _ hrefuse, Cond.holds_not,
      Option.some.injEq, decide_eq_false_iff_not, not_not, Except.ok.injEq, exists_eq_left']
    constructor
    · rintro ⟨-, _, ⟨htokens, rfl⟩, h⟩
      exact ⟨htokens, h⟩
    · rintro ⟨htokens, h⟩
      exact ⟨(), _, ⟨htokens, rfl⟩, h⟩

end

/-! ## A sequence of calls -/

/-- What a sequence of calls about one key answers, one after the other: `none`
for a call that raises an error, which leaves the table as it is. -/
def answers (key : String) (maxTokens : Int4) : List (Context × Int4) → Db → List (Option Cond)
  | [], _ => []
  | (ctx, refillRate) :: calls, db =>
    match (checkRateLimit ctx (some key) (some maxTokens) (some refillRate)).exec db with
    | .ok (a, db') => some a :: answers key maxTokens calls db'
    | .error _ => none :: answers key maxTokens calls db

/-- At most `maxTokens` calls are let through, and the others are refused. -/
def Limits (maxTokens : Int4) (as : List (Option Cond)) : Prop :=
  (as.countP fun a => decide (a = some (some true)) : ℤ) ≤ maxTokens.1 ∧
    ∀ a ∈ as, a = some (some true) ∨ a = some (some false)

/-- The first call creates the row, or refills it. -/
def Refills (now : Timestamp) : Option RateLimit → Prop
  | none => True
  | some r => r.isStale now = true ∧ (0 < r.tokens.1 ∨ -2 ^ 31 < r.maxTokens.1)

/-- The interval of the row: one minute for a row that is being created. -/
def interval : Option RateLimit → ℤ
  | none => oneMinute
  | some r => r.refillInterval

/-- A row without tokens that is refilled with nothing. -/
def Worthless : Option RateLimit → Prop
  | none => False
  | some r => r.tokens.1 ≤ 0 ∧ r.maxTokens.1 ≤ 0

/-- **Within the interval** every call answers as the row stands at its start:
a token is spent when there is one, and otherwise nothing changes. -/
theorem answers_within {key : String} {maxTokens : Int4} (hmax : 1 ≤ maxTokens.1)
    {calls : List (Context × Int4)} {db : Db} {r : RateLimit}
    (hrow : db.rateLimits.get? key = some r)
    (hcalls : ∀ c ∈ calls, c.1.now ≤ r.lastRefill + r.refillInterval) :
    answers key maxTokens calls db =
      List.replicate calls.length (some (some (decide (0 ≤ r.tokens.1)))) := by
  induction calls generalizing db r with
  | nil => rfl
  | cons c calls ih =>
    obtain ⟨ctx, refillRate⟩ := c
    have hfresh : r.isStale ctx.now = false := by
      have : ctx.now ≤ _ := hcalls _ (List.mem_cons_self ..)
      simp only [RateLimit.isStale, decide_eq_false_iff_not]
      exact not_lt.2 (sub_le_iff_le_add.2 this)
    obtain ⟨r', htake, hkey, hsign, hinterval, hlast⟩ :
        ∃ r', takeToken ctx.now key maxTokens refillRate (some r) = .ok r' ∧ r'.key = r.key ∧
          (0 ≤ r'.tokens.1 ↔ 0 ≤ r.tokens.1) ∧ r'.refillInterval = r.refillInterval ∧
            r'.lastRefill = r.lastRefill := by
      rw [takeToken]
      by_cases htokens : 0 < r.tokens.1
      · obtain ⟨r', hconsume, hkey, hval, -, hinterval, hlast⟩ :=
          consume_ok ctx.now hmax htokens
        simp only [hfresh, Bool.false_eq_true, if_false] at hval hlast
        exact ⟨r', by rw [if_pos htokens, hconsume], hkey, by omega, hinterval, hlast⟩
      · obtain ⟨r', hrefill, hkey, hval, -, hinterval, hlast⟩ :=
          refill_ok ctx.now (r := r) (fun h => by rw [hfresh] at h; cases h)
        simp only [hfresh, Bool.false_eq_true, if_false] at hval hlast
        exact ⟨r', by rw [if_neg htokens, hrefill], hkey, by omega, hinterval, hlast⟩
    have hget : (db.apply (.rateLimit r')).rateLimits.get? key = some r' := by
      rw [← Table.key_of_get? hrow, ← hkey]
      exact Table.get?_put_self _ r'
    rw [answers, execute_checkRateLimit ctx db hmax, hrow, htake]
    simp only [List.length_cons, List.replicate_succ, hsign]
    rw [ih hget]
    · simp only [hsign]
    · intro c hc
      rw [hlast, hinterval]
      exact hcalls c (List.mem_cons_of_mem _ hc)

/-- **The bucket never runs dry.**  In the interval after the call that creates
or refills the row, that call included, at most `maxTokens` calls pass and the
others are refused exactly when no more than `maxTokens` calls are made, or the
row was refilled with nothing. -/
theorem limits_iff {key : String} {maxTokens : Int4} (hmax : 1 ≤ maxTokens.1)
    {first : Context × Int4} {rest : List (Context × Int4)} {db : Db}
    (hfirst : Refills first.1.now (db.rateLimits.get? key))
    (hrest : ∀ c ∈ rest, c.1.now ≤ first.1.now + interval (db.rateLimits.get? key)) :
    Limits maxTokens (answers key maxTokens (first :: rest) db) ↔
      (rest.length + 1 : ℤ) ≤ maxTokens.1 ∨ Worthless (db.rateLimits.get? key) := by
  obtain ⟨ctx, refillRate⟩ := first
  obtain ⟨r, htake, hkey, hsign, hinterval, hlast⟩ :
      ∃ r, takeToken ctx.now key maxTokens refillRate (db.rateLimits.get? key) = .ok r ∧
        r.key = key ∧ (0 ≤ r.tokens.1 ↔ ¬ Worthless (db.rateLimits.get? key)) ∧
          r.refillInterval = interval (db.rateLimits.get? key) ∧ r.lastRefill = ctx.now := by
    cases hrow : db.rateLimits.get? key with
    | none =>
      obtain ⟨r, hnew, hkey, htokens, -, hinterval, hlast⟩ :=
        newRateLimit_ok ctx.now key refillRate hmax
      exact ⟨r, hnew, hkey, by simp only [Worthless, not_false_iff, iff_true]; omega, hinterval,
        hlast⟩
    | some r =>
      rw [hrow] at hfirst
      obtain ⟨hstale, hrefills⟩ := hfirst
      have hkey := Table.key_of_get? hrow
      rw [takeToken, Worthless]
      by_cases htokens : 0 < r.tokens.1
      · obtain ⟨r', hconsume, hkey', hval, -, hinterval, hlast⟩ :=
          consume_ok ctx.now hmax htokens
        rw [if_pos hstale] at hval hlast
        exact ⟨r', by rw [if_pos htokens, hconsume], hkey'.trans hkey, by omega, hinterval, hlast⟩
      · obtain ⟨r', hrefill, hkey', hval, -, hinterval, hlast⟩ :=
          refill_ok ctx.now (r := r) (fun _ => hrefills.resolve_left htokens)
        rw [if_pos hstale] at hval hlast
        exact ⟨r', by rw [if_neg htokens, hrefill], hkey'.trans hkey, by omega, hinterval, hlast⟩
  have hget : (db.apply (.rateLimit r)).rateLimits.get? key = some r :=
    hkey ▸ Table.get?_put_self _ r
  have hanswers : answers key maxTokens ((ctx, refillRate) :: rest) db =
      List.replicate (rest.length + 1) (some (some (decide (0 ≤ r.tokens.1)))) := by
    rw [answers, execute_checkRateLimit ctx db hmax, htake]
    simp only [List.replicate_succ]
    rw [answers_within hmax hget]
    rw [hlast, hinterval]
    exact hrest
  rw [hanswers, Limits]
  by_cases hworth : Worthless (db.rateLimits.get? key)
  · have hneg : ¬ 0 ≤ r.tokens.1 := fun h => hsign.1 h hworth
    simp only [hworth, hneg, decide_false, or_true, iff_true, List.countP_replicate]
    exact ⟨by simp; omega, fun a ha => Or.inr (List.eq_of_mem_replicate ha)⟩
  · have hnonneg : 0 ≤ r.tokens.1 := hsign.2 hworth
    simp only [hworth, hnonneg, decide_true, or_false, List.countP_replicate, if_true]
    push_cast
    exact ⟨fun h => h.1, fun h => ⟨h, fun a ha => Or.inl (List.eq_of_mem_replicate ha)⟩⟩

/-- The theorem at work: two calls at the same time on a new key that is allowed
one token. -/
theorem limits_iff_twoCalls :
    let call : Context × Int4 := (.plain true 7 1 0 100, ⟨1, by decide⟩)
    Limits ⟨1, by decide⟩ (answers "key" ⟨1, by decide⟩ [call, call] Db.empty) ↔
      ((1 : ℕ) + 1 : ℤ) ≤ 1 ∨ Worthless (Db.empty.rateLimits.get? "key") :=
  limits_iff (by decide) trivial (by decide)

/-- **One token, two calls.**  Both pass. -/
theorem not_limits_twoCalls :
    ¬ ∀ (key : String) (maxTokens : Int4), 1 ≤ maxTokens.1 →
      ∀ (first : Context × Int4) (rest : List (Context × Int4)) (db : Db),
        Refills first.1.now (db.rateLimits.get? key) →
        ((first :: rest).map fun c => c.1.now).Pairwise (· ≤ ·) →
        (∀ c ∈ rest, c.1.now ≤ first.1.now + interval (db.rateLimits.get? key)) →
          Limits maxTokens (answers key maxTokens (first :: rest) db) := by
  intro h
  let call : Context × Int4 := (.plain true 7 1 0 100, ⟨1, by decide⟩)
  have hlimits := h "key" ⟨1, by decide⟩ (by decide) call [call] Db.empty trivial (by decide)
    (by decide)
  have hanswers : answers "key" ⟨1, by decide⟩ [call, call] Db.empty =
      [some (some true), some (some true)] := by
    decide +kernel
  rw [hanswers] at hlimits
  exact absurd hlimits.1 (by decide)

end EnterpriseSystem
