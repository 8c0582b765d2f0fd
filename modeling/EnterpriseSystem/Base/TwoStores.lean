import EnterpriseSystem.Base.Async

/-!
# One function on two stores

Whether an asynchronous function can tell two stores apart is a question about two runs
of it, one on each.  They agree when both return the same answer or both throw the same
error; what holds of the two stores is carried from one operation to the next.

* `Task.Agree R p Q X` — on stores in `R` the two runs of `p` agree, and leave stores in `Q`
  of the answer, or in `X` behind an error.
* `Task.Agree.bind` and its companions — the rules.
-/

namespace Concurrency

namespace Task

variable {Op : Type} {Ans : Op → Type} {E α β S : Type}
  {exec : (o : Op) → S → Except E (Ans o) × S}

/-- Two runs that have come to the same. -/
inductive Same (Q : α → S → S → Prop) (X : S → S → Prop) :
    Except E α × S → Except E α × S → Prop where
  | ok {a : α} {s t : S} : Q a s t → Same Q X (.ok a, s) (.ok a, t)
  | error {e : E} {s t : S} : X s t → Same Q X (.error e, s) (.error e, t)

/-- On stores in `R` the two runs agree, and leave stores in `Q` or in `X`. -/
def Agree (exec : (o : Op) → S → Except E (Ans o) × S) (R : S → S → Prop) (p : Task Op Ans E α)
    (Q : α → S → S → Prop) (X : S → S → Prop) : Prop :=
  ∀ s t, R s t → Same Q X (run exec p s) (run exec p t)

variable {R : S → S → Prop} {p : Task Op Ans E α} {Q : α → S → S → Prop} {X : S → S → Prop}

theorem Agree.pure {a : α} (h : ∀ s t, R s t → Q a s t) :
    Agree exec R (Pure.pure a : Task Op Ans E α) Q X :=
  fun s t hst => .ok (h s t hst)

theorem Agree.throw {e : E} (h : ∀ s t, R s t → X s t) :
    Agree exec R (MonadExcept.throw e : Task Op Ans E α) Q X :=
  fun s t hst => .error (h s t hst)

/-- **Sequencing**: the second halves start in stores that the first ones left. -/
theorem Agree.bind {f : α → Task Op Ans E β} {Q' : β → S → S → Prop} (hp : Agree exec R p Q X)
    (hf : ∀ a, Agree exec (Q a) (f a) Q' X) : Agree exec R (p >>= f) Q' X := by
  intro s t hst
  have hfirst := hp s t hst
  rw [run_bind, run_bind]
  generalize run exec p s = r at hfirst
  generalize run exec p t = r' at hfirst
  cases hfirst with
  | ok hnext => exact hf _ _ _ hnext
  | error hstop => exact .error hstop

/-- **One operation** that answers alike. -/
theorem Agree.await {o : Op} {Q : Ans o → S → S → Prop}
    (h : ∀ s t, R s t → Same Q X (exec o s) (exec o t)) :
    Agree exec R (Task.await o : Task Op Ans E (Ans o)) Q X := h

theorem Agree.ite {c : Prop} [Decidable c] {p' : Task Op Ans E α} (hp : c → Agree exec R p Q X)
    (hp' : ¬ c → Agree exec R p' Q X) : Agree exec R (if c then p else p') Q X := by
  split
  · exact hp ‹_›
  · exact hp' ‹_›

theorem Same.mono {Q' : α → S → S → Prop} {X' : S → S → Prop} {r r' : Except E α × S}
    (h : Same Q X r r') (hQ : ∀ a s t, Q a s t → Q' a s t) (hX : ∀ s t, X s t → X' s t) :
    Same Q' X' r r' := by
  cases h with
  | ok hnext => exact .ok (hQ _ _ _ hnext)
  | error hstop => exact .error (hX _ _ hstop)

/-- **Consequence.** -/
theorem Agree.mono {R' : S → S → Prop} {Q' : α → S → S → Prop} {X' : S → S → Prop}
    (h : Agree exec R p Q X) (hR : ∀ s t, R' s t → R s t) (hQ : ∀ a s t, Q a s t → Q' a s t)
    (hX : ∀ s t, X s t → X' s t) : Agree exec R' p Q' X' :=
  fun s t hst => (h s t (hR s t hst)).mono hQ hX

/-- **Agreement is invisible**: the same answer, and stores in `X`. -/
theorem Agree.answers (h : Agree exec R p (fun _ => X) X) {s t : S} (hst : R s t) :
    (run exec p s).1 = (run exec p t).1 ∧ X (run exec p s).2 (run exec p t).2 := by
  have hsame := h s t hst
  generalize run exec p s = r at hsame
  generalize run exec p t = r' at hsame
  cases hsame with
  | ok hnext => exact ⟨rfl, hnext⟩
  | error hstop => exact ⟨rfl, hstop⟩

end Task

end Concurrency
