import Mathlib

/-!
# Counting in fixed windows

A counter that admits a limited number of requests in a window, and opens the
next window with the first request after it.

* `Window` — how many have been admitted, and until when the window lasts.
* `Move` — what one moment does to the counter, and whether it admits anything;
  `Course` — a sequence of moments.
* `admitted_until_reset` — until a window is over only what is left of the limit
  is admitted.
* `admitted_within` — within any time of the length of a window, at most twice
  the limit.
-/

namespace FixedWindow

variable {T : Type*} [LinearOrder T] [AddCommGroup T] [IsOrderedAddMonoid T]

/-- An open window. -/
structure Window (T : Type*) where
  count : ℕ
  resetTime : T
  deriving DecidableEq

/-- What a moment does to the window, and whether it admits a request. -/
inductive Move (limit : ℕ) (length : T) (now : T) :
    Option (Window T) → Bool → Option (Window T) → Prop where
  /-- Nothing, or a request is refused. -/
  | rests (w : Option (Window T)) : Move limit length now w false w
  /-- The first request after the window. -/
  | opens {w : Option (Window T)} : (∀ old, w = some old → old.resetTime < now) →
      Move limit length now w true (some ⟨1, now + length⟩)
  /-- Another request in the window. -/
  | counts {w : Window T} : now ≤ w.resetTime → w.count < limit →
      Move limit length now (some w) true (some ⟨w.count + 1, w.resetTime⟩)
  /-- The window is forgotten once it is over. -/
  | expires {w : Window T} : w.resetTime < now → Move limit length now (some w) false none

/-- A sequence of moments, each with whether it admits a request. -/
inductive Course (limit : ℕ) (length : T) : Option (Window T) → List (T × Bool) → Prop where
  | nil (w : Option (Window T)) : Course limit length w []
  | cons {w w' : Option (Window T)} {now : T} {admits : Bool} {rest : List (T × Bool)} :
      Move limit length now w admits w' → Course limit length w' rest →
      Course limit length w ((now, admits) :: rest)

/-- How many requests are admitted until a time. -/
def admittedUntil (course : List (T × Bool)) (b : T) : ℕ :=
  course.countP fun p => p.2 && decide (p.1 ≤ b)

/-- How many requests are admitted from a time to another one. -/
def admittedIn (course : List (T × Bool)) (a b : T) : ℕ :=
  course.countP fun p => p.2 && decide (a ≤ p.1) && decide (p.1 ≤ b)

/-- The moments are in order. -/
def Ordered (course : List (T × Bool)) : Prop := course.Pairwise fun p q => p.1 ≤ q.1

section

omit [AddCommGroup T] [IsOrderedAddMonoid T]

theorem admittedUntil_cons_refused (now : T) (course : List (T × Bool)) (b : T) :
    admittedUntil ((now, false) :: course) b = admittedUntil course b := by
  simp [admittedUntil]

theorem admittedUntil_cons_le (p : T × Bool) (course : List (T × Bool)) (b : T) :
    admittedUntil (p :: course) b ≤ admittedUntil course b + 1 := by
  unfold admittedUntil
  rw [List.countP_cons]
  split <;> omega

/-- Nothing is admitted until `b` when everything is later. -/
theorem admittedUntil_eq_zero {course : List (T × Bool)} {b : T} (h : ∀ p ∈ course, b < p.1) :
    admittedUntil course b = 0 := by
  rw [admittedUntil, List.countP_eq_zero]
  intro p hp
  simp [(h p hp)]

theorem admittedUntil_mono (course : List (T × Bool)) {b b' : T} (h : b ≤ b') :
    admittedUntil course b ≤ admittedUntil course b' := by
  refine List.countP_mono_left fun p _ hp => ?_
  simp only [Bool.and_eq_true, decide_eq_true_eq] at hp ⊢
  exact ⟨hp.1, hp.2.trans h⟩

theorem Ordered.tail {p : T × Bool} {course : List (T × Bool)} (h : Ordered (p :: course)) :
    Ordered course := (List.pairwise_cons.1 h).2

theorem Ordered.head_le {p : T × Bool} {course : List (T × Bool)} (h : Ordered (p :: course)) :
    ∀ q ∈ course, p.1 ≤ q.1 := (List.pairwise_cons.1 h).1

/-- What is before the first moment is before all of them. -/
theorem Ordered.forall_lt {p : T × Bool} {course : List (T × Bool)} (h : Ordered (p :: course))
    {a : T} (ha : a < p.1) : ∀ q ∈ p :: course, a < q.1 := by
  intro q hq
  rcases List.mem_cons.1 hq with rfl | hq
  · exact ha
  · exact ha.trans_le (h.head_le q hq)

theorem Ordered.forall_le {p : T × Bool} {course : List (T × Bool)} (h : Ordered (p :: course))
    {a : T} (ha : a ≤ p.1) : ∀ q ∈ p :: course, a ≤ q.1 := by
  intro q hq
  rcases List.mem_cons.1 hq with rfl | hq
  · exact ha
  · exact ha.trans (h.head_le q hq)

/-- From `a` on, what is admitted in an interval that starts there is what is admitted
until its end. -/
theorem admittedIn_eq_admittedUntil {course : List (T × Bool)} {a b : T}
    (h : ∀ p ∈ course, a ≤ p.1) : admittedIn course a b = admittedUntil course b := by
  refine List.countP_congr fun p hp => ?_
  simp [h p hp]

end

variable {limit : ℕ} {length : T} {w w' : Option (Window T)} {course : List (T × Bool)}

/-- The window stays within the limit. -/
def Within (limit : ℕ) (w : Option (Window T)) : Prop := ∀ v, w = some v → v.count ≤ limit

omit [IsOrderedAddMonoid T] in
theorem Move.within {now : T} {admits : Bool} (h : Move limit length now w admits w')
    (hlimit : 1 ≤ limit) (hw : Within limit w) : Within limit w' := by
  cases h with
  | rests => exact hw
  | opens _ =>
    rintro v ⟨⟩
    exact hlimit
  | counts _ hcount =>
    rintro v ⟨⟩
    exact hcount
  | expires _ => exact nofun

omit [IsOrderedAddMonoid T] in
/-- **Until a window is over** only what is left of the limit is admitted. -/
theorem admitted_until_reset {v : Window T} (h : Course limit length (some v) course)
    (hordered : Ordered course) (hv : v.count ≤ limit) :
    v.count + admittedUntil course v.resetTime ≤ limit := by
  generalize hw : some v = w at h
  induction h generalizing v with
  | nil => exact hv
  | @cons w w' now admits rest hmove _ ih =>
    subst hw
    -- once the window is over, nothing that follows counts
    have hover : v.resetTime < now → admittedUntil ((now, admits) :: rest) v.resetTime = 0 :=
      fun hlate => admittedUntil_eq_zero (hordered.forall_lt hlate)
    cases hmove with
    | rests =>
      rw [admittedUntil_cons_refused]
      exact ih hordered.tail hv rfl
    | opens hlate =>
      rw [hover (hlate v rfl)]
      exact hv
    | counts _ hcount =>
      have hrest := ih hordered.tail (v := ⟨v.count + 1, v.resetTime⟩) hcount rfl
      have hhead := admittedUntil_cons_le (now, true) rest v.resetTime
      dsimp only at hrest
      omega
    | expires hlate =>
      rw [hover hlate]
      exact hv

/-- Between windows: at most the limit within the length of one. -/
theorem admitted_between {a : T} (h : Course limit length w course) (hordered : Ordered course)
    (hlimit : 1 ≤ limit) (hfrom : ∀ p ∈ course, a ≤ p.1)
    (hover : ∀ v, w = some v → ∀ p ∈ course, v.resetTime < p.1) :
    admittedUntil course (a + length) ≤ limit := by
  induction h with
  | nil => exact Nat.zero_le _
  | @cons w w' now admits rest hmove hrest ih =>
    have hfrom' : ∀ p ∈ rest, a ≤ p.1 := fun p hp => hfrom p (List.mem_cons_of_mem _ hp)
    cases hmove with
    | rests =>
      rw [admittedUntil_cons_refused]
      exact ih hordered.tail hfrom' fun v hv p hp => hover v hv p (List.mem_cons_of_mem _ hp)
    | opens _ =>
      -- the window that opens here lasts until the end
      have hnow : a ≤ now := hfrom (now, true) (List.mem_cons_self ..)
      have hinside := admitted_until_reset hrest hordered.tail hlimit
      have hlonger := admittedUntil_mono rest (add_le_add_left hnow length)
      have hhead := admittedUntil_cons_le (now, true) rest (a + length)
      dsimp only at hinside
      omega
    | @counts v hlive _ =>
      have hpast : v.resetTime < now := hover v rfl (now, true) (List.mem_cons_self ..)
      exact absurd hlive (not_le.2 hpast)
    | expires _ =>
      rw [admittedUntil_cons_refused]
      exact ih hordered.tail hfrom' nofun

/-- From `a` on: what is left of the window that is open then, and another one. -/
theorem admitted_from {a : T} (h : Course limit length w course) (hordered : Ordered course)
    (hlimit : 1 ≤ limit) (hw : Within limit w) (hfrom : ∀ p ∈ course, a ≤ p.1) :
    admittedUntil course (a + length) ≤ 2 * limit := by
  -- an open window leaves only what is left of its limit before the next one
  suffices hopen : ∀ v, w = some v → v.count ≤ limit →
      v.count + admittedUntil course (a + length) ≤ 2 * limit by
    cases w with
    | none =>
      have hfirst := admitted_between h hordered hlimit hfrom nofun
      omega
    | some v =>
      have hrest := hopen v rfl (hw v rfl)
      omega
  induction h with
  | nil =>
    intro v _ hv
    have hnone : admittedUntil ([] : List (T × Bool)) (a + length) = 0 := rfl
    omega
  | @cons w w' now admits rest hmove hrest ih =>
    have hfrom' : ∀ p ∈ rest, a ≤ p.1 := fun p hp => hfrom p (List.mem_cons_of_mem _ hp)
    have hlater : ∀ b < now, ∀ p ∈ (now, admits) :: rest, b < p.1 :=
      fun b hb => hordered.forall_lt hb
    rintro v rfl hv
    cases hmove with
    | rests =>
      rw [admittedUntil_cons_refused]
      exact ih hordered.tail hw hfrom' v rfl hv
    | opens hlate =>
      have hnext := admitted_between (.cons (.opens hlate) hrest) hordered hlimit hfrom
        (by rintro v' ⟨⟩; exact hlater _ (hlate v rfl))
      omega
    | counts hlive hcount =>
      have hnext := ih hordered.tail (by rintro v' ⟨⟩; exact hcount) hfrom' _ rfl hcount
      have hhead := admittedUntil_cons_le (now, true) rest (a + length)
      dsimp only at hnext
      omega
    | expires hlate =>
      rw [admittedUntil_cons_refused]
      have hnext := admitted_between hrest hordered.tail hlimit hfrom' nofun
      omega

/-- **Within the length of one window** at most twice the limit is admitted. -/
theorem admitted_within {a : T} (h : Course limit length w course) (hordered : Ordered course)
    (hlimit : 1 ≤ limit) (hw : Within limit w) :
    admittedIn course a (a + length) ≤ 2 * limit := by
  induction h with
  | nil => exact Nat.zero_le _
  | @cons w w' now admits rest hmove hrest ih =>
    by_cases hearly : now < a
    · have hskip : admittedIn ((now, admits) :: rest) a (a + length) =
          admittedIn rest a (a + length) := by
        simp [admittedIn, not_le.2 hearly]
      rw [hskip]
      exact ih hordered.tail (hmove.within hlimit hw)
    · have hfrom : ∀ p ∈ (now, admits) :: rest, a ≤ p.1 := hordered.forall_le (not_lt.1 hearly)
      rw [admittedIn_eq_admittedUntil hfrom]
      exact admitted_from (.cons hmove hrest) hordered hlimit hw hfrom

end FixedWindow
