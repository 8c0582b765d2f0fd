import EnterpriseSystem.Base.FixedWindow

/-!
# Token buckets

A bucket that fills at a constant rate up to its capacity, and from which one token is taken
at a time.  When a token may be taken is left open: a bucket may go into debt.

* `Bucket`, `refill`, `after` — the bucket, and what one moment does to it.
* `Covered` — along a course the debt stays within a bound.
* `admittedUntil_le` — until a time no more is taken than there is and flows in, and what is
  owed.
* `admittedIn_le` — in any interval no more than the capacity, what flows in, and what is
  owed.
* `covered_iff` — nothing is owed when a token is only taken from a bucket that has one.
-/

namespace TokenBucket

open FixedWindow

variable {K : Type*} [Field K] [LinearOrder K] [IsStrictOrderedRing K]

/-- A bucket, with the time at which it was filled last. -/
structure Bucket (K : Type*) where
  level : K
  filled : K

namespace Bucket

variable (capacity rate : K)

/-- What has flown in since. -/
def refill (b : Bucket K) (now : K) : Bucket K :=
  { level := min capacity (b.level + (now - b.filled) * rate)
    filled := now }

/-- A moment at which a token is taken, or none. -/
def after (b : Bucket K) (now : K) (takes : Bool) : Bucket K :=
  { b.refill capacity rate now with
    level := (b.refill capacity rate now).level - if takes then 1 else 0 }

/-- The debt stays within a bound. -/
def Covered (debt : K) : Bucket K → List (K × Bool) → Prop
  | _, [] => True
  | b, (now, takes) :: course =>
    -debt ≤ (b.after capacity rate now takes).level ∧
      Covered debt (b.after capacity rate now takes) course

/-- A token is only taken when there is one. -/
def Affords : Bucket K → List (K × Bool) → Prop
  | _, [] => True
  | b, (now, takes) :: course =>
    (takes = true → 1 ≤ (b.refill capacity rate now).level) ∧
      Affords (b.after capacity rate now takes) course

variable {capacity rate} {b : Bucket K} {now debt : K} {takes : Bool} {course : List (K × Bool)}

/-! ## One moment -/

omit [IsStrictOrderedRing K] in
@[simp] theorem filled_after : (b.after capacity rate now takes).filled = now := rfl

theorem level_after_le : (b.after capacity rate now takes).level ≤
    capacity - if takes then 1 else 0 :=
  sub_le_sub_right (min_le_left ..) _

theorem level_after_le_add : (b.after capacity rate now takes).level ≤
    b.level + (now - b.filled) * rate - if takes then 1 else 0 :=
  sub_le_sub_right (min_le_right ..) _

theorem level_refill_nonneg (hcapacity : 0 ≤ capacity) (hrate : 0 ≤ rate) (hb : 0 ≤ b.level)
    (hnow : b.filled ≤ now) : 0 ≤ (b.refill capacity rate now).level :=
  le_min hcapacity (add_nonneg hb (mul_nonneg (sub_nonneg.2 hnow) hrate))

theorem level_after_nonneg_iff (hrefill : 0 ≤ (b.refill capacity rate now).level) :
    0 ≤ (b.after capacity rate now takes).level ↔
      (takes = true → 1 ≤ (b.refill capacity rate now).level) := by
  cases takes with
  | false => simp [after, hrefill]
  | true => simp [after]

/-! ## Along a course -/

/-- What one moment adds to the count. -/
theorem admittedUntil_cons_le_add (p : K × Bool) (course : List (K × Bool)) (t : K) :
    (admittedUntil (p :: course) t : K) ≤ (if p.2 then 1 else 0) + admittedUntil course t := by
  obtain ⟨now, takes⟩ := p
  cases takes with
  | false => rw [admittedUntil_cons_refused]; simp
  | true =>
    have hhead : (admittedUntil ((now, true) :: course) t : K) ≤ admittedUntil course t + 1 :=
      mod_cast admittedUntil_cons_le (now, true) course t
    simpa [add_comm] using hhead

/-- **Until a time** no more is taken than there is, what flows in, and what is owed. -/
theorem admittedUntil_le (hrate : 0 ≤ rate) (hcovered : b.Covered capacity rate debt course)
    (hordered : Ordered course) (hb : -debt ≤ b.level) {t : K} (ht : b.filled ≤ t) :
    (admittedUntil course t : K) ≤ b.level + debt + (t - b.filled) * rate := by
  induction course generalizing b with
  | nil =>
    have hinflow : 0 ≤ (t - b.filled) * rate := mul_nonneg (sub_nonneg.2 ht) hrate
    have hnone : admittedUntil ([] : List (K × Bool)) t = 0 := rfl
    rw [hnone]
    push_cast
    linarith
  | cons p course ih =>
    obtain ⟨hhead, htail⟩ := hcovered
    rcases le_or_gt p.1 t with hnow | hnow
    · have hrest := ih htail hordered.tail hhead hnow
      have hcount := admittedUntil_cons_le_add p course t
      have hlevel : (b.after capacity rate p.1 p.2).level ≤ _ := level_after_le_add
      rw [filled_after] at hrest
      linarith
    · -- all of it is later
      have hinflow : 0 ≤ (t - b.filled) * rate := mul_nonneg (sub_nonneg.2 ht) hrate
      rw [admittedUntil_eq_zero (hordered.forall_lt hnow)]
      push_cast
      linarith

/-- **In any interval** no more is taken than the capacity, what flows in, and what is owed. -/
theorem admittedIn_le (hrate : 0 ≤ rate) (hcapacity : -debt ≤ capacity)
    (hcovered : b.Covered capacity rate debt course) (hordered : Ordered course) {s t : K}
    (hst : s ≤ t) : (admittedIn course s t : K) ≤ capacity + debt + (t - s) * rate := by
  induction course generalizing b with
  | nil =>
    have hinflow : 0 ≤ (t - s) * rate := mul_nonneg (sub_nonneg.2 hst) hrate
    have hnone : admittedIn ([] : List (K × Bool)) s t = 0 := rfl
    rw [hnone]
    push_cast
    linarith
  | cons p course ih =>
    obtain ⟨hhead, htail⟩ := hcovered
    rcases lt_or_ge p.1 s with hearly | hfrom
    · have hskip : admittedIn (p :: course) s t = admittedIn course s t := by
        simp [admittedIn, not_le.2 hearly]
      rw [hskip]
      exact ih htail hordered.tail
    rw [admittedIn_eq_admittedUntil (hordered.forall_le hfrom)]
    rcases le_or_gt p.1 t with hnow | hnow
    · -- from this moment on, with a full bucket at most
      have hrest := admittedUntil_le hrate htail hordered.tail hhead hnow
      have hcount := admittedUntil_cons_le_add p course t
      have hlevel : (b.after capacity rate p.1 p.2).level ≤ _ := level_after_le
      have hinflow : (t - p.1) * rate ≤ (t - s) * rate :=
        mul_le_mul_of_nonneg_right (sub_le_sub_left hfrom t) hrate
      rw [filled_after] at hrest
      linarith
    · have hinflow : 0 ≤ (t - s) * rate := mul_nonneg (sub_nonneg.2 hst) hrate
      rw [admittedUntil_eq_zero (hordered.forall_lt hnow)]
      push_cast
      linarith

/-- **Nothing is owed** exactly when a token is only taken from a bucket that has one. -/
theorem covered_iff (hcapacity : 0 ≤ capacity) (hrate : 0 ≤ rate) (hb : 0 ≤ b.level)
    (hordered : Ordered course) (hfrom : ∀ p ∈ course, b.filled ≤ p.1) :
    b.Covered capacity rate 0 course ↔ b.Affords capacity rate course := by
  induction course generalizing b with
  | nil => exact Iff.rfl
  | cons p course ih =>
    have hrefill := level_refill_nonneg hcapacity hrate hb (hfrom p (List.mem_cons_self ..))
    have hhead : 0 ≤ (b.after capacity rate p.1 p.2).level ↔ _ := level_after_nonneg_iff hrefill
    unfold Covered Affords
    rw [neg_zero, hhead]
    exact and_congr_right fun haffords =>
      ih (hhead.2 haffords) hordered.tail hordered.head_le

end Bucket

end TokenBucket
