import EnterpriseSystem.Base.Gate

/-!
# What a function has seen

A function interleaved with others knows of the store what its own operations have answered, and
nothing else.

* `Prog.Saw` — what a program returns when its operations are performed in these states, one after
  the other; `saw_bind`, `saw_exceptBind` take it apart, `saw_translate` changes the operations.
* `Prog.Awaits` — the operation that it performs next, after these states.
* `System.seen` — the states in which one of the functions has moved along a run.
* `System.result?_iff_saw`, `System.performs_iff_awaits` — it has returned exactly what it returns
  in these states, and performs what it performs after them; `System.performs_of_seen` finds the
  step in which it has done so.
-/

namespace Concurrency

open Relational

namespace Prog

variable {Op Op' S S' : Type} {Res : Op → Type} {Res' : Op' → Type} {α β E : Type}

/-- The program returns `a` when its operations are performed in these states. -/
def Saw (exec : (o : Op) → S → Res o × S) : Prog Op Res α → List S → α → Prop
  | .ret b, ss, a => ss = [] ∧ b = a
  | .op o k, ss, a => ∃ s rest, ss = s :: rest ∧ (k (exec o s).1).Saw exec rest a

variable {exec : (o : Op) → S → Res o × S} {ss : List S} {a : α}

@[simp] theorem saw_ret {b : α} : (ret b : Prog Op Res α).Saw exec ss a ↔ ss = [] ∧ b = a := Iff.rfl

@[simp] theorem saw_pure {b : α} : (pure b : Prog Op Res α).Saw exec ss a ↔ ss = [] ∧ b = a :=
  Iff.rfl

theorem saw_op {o : Op} {k : Res o → Prog Op Res α} : (op o k).Saw exec ss a ↔
    ∃ s rest, ss = s :: rest ∧ (k (exec o s).1).Saw exec rest a := Iff.rfl

@[simp] theorem saw_op_cons {o : Op} {k : Res o → Prog Op Res α} {s : S} :
    (op o k).Saw exec (s :: ss) a ↔ (k (exec o s).1).Saw exec ss a := by
  simp [saw_op]

@[simp] theorem not_saw_op_nil {o : Op} {k : Res o → Prog Op Res α} :
    ¬ (op o k).Saw exec [] a := by
  simp [saw_op]

/-- The same states, the same result. -/
theorem Saw.unique {p : Prog Op Res α} {b : α} (ha : p.Saw exec ss a) (hb : p.Saw exec ss b) :
    a = b := by
  induction p generalizing ss with
  | ret c => exact ha.2.symm.trans hb.2
  | op o k ih =>
    obtain ⟨s, rest, rfl, ha⟩ := ha
    exact ih _ ha (saw_op_cons.1 hb)

/-- **Sequencing**: the second half takes up where the first one has stopped. -/
theorem saw_bind {p : Prog Op Res α} {f : α → Prog Op Res β} {b : β} :
    (p.bind f).Saw exec ss b ↔
      ∃ pre post a, ss = pre ++ post ∧ p.Saw exec pre a ∧ (f a).Saw exec post b := by
  induction p generalizing ss with
  | ret c =>
    constructor
    · exact fun h => ⟨[], ss, c, rfl, ⟨rfl, rfl⟩, h⟩
    · rintro ⟨pre, post, a, rfl, ⟨rfl, rfl⟩, h⟩
      exact h
  | op o k ih =>
    constructor
    · rintro ⟨s, rest, rfl, h⟩
      obtain ⟨pre, post, a, rfl, hpre, hpost⟩ := (ih _).1 h
      exact ⟨s :: pre, post, a, rfl, saw_op_cons.2 hpre, hpost⟩
    · rintro ⟨pre, post, a, rfl, ⟨s, rest, rfl, hpre⟩, hpost⟩
      exact saw_op_cons.2 ((ih _).2 ⟨rest, post, a, rfl, hpre, hpost⟩)

/-- Sequencing with errors: the second half takes up, or the first one has failed. -/
theorem saw_exceptBind {p : ExceptT E (Prog Op Res) α} {f : α → ExceptT E (Prog Op Res) β}
    {r : Except E β} : (ExceptT.run (p >>= f)).Saw exec ss r ↔
      (∃ pre post a, ss = pre ++ post ∧ (ExceptT.run p).Saw exec pre (.ok a) ∧
        (ExceptT.run (f a)).Saw exec post r) ∨
      ∃ e, (ExceptT.run p).Saw exec ss (.error e) ∧ r = .error e := by
  rw [ExceptT.run_bind, bind_def, saw_bind]
  constructor
  · rintro ⟨pre, post, a | a, rfl, hpre, hpost⟩
    · obtain ⟨rfl, rfl⟩ := hpost
      rw [List.append_nil]
      exact Or.inr ⟨a, hpre, rfl⟩
    · exact Or.inl ⟨pre, post, a, rfl, hpre, hpost⟩
  · rintro (⟨pre, post, a, rfl, hpre, hpost⟩ | ⟨e, hpre, rfl⟩)
    · exact ⟨pre, post, .ok a, rfl, hpre, hpost⟩
    · exact ⟨ss, [], .error e, (List.append_nil ss).symm, hpre, rfl, rfl⟩

/-- One operation. -/
theorem saw_await {Ans : Op → Type} {exec : (o : Op) → S → Except E (Ans o) × S} {o : Op}
    {r : Except E (Ans o)} : (ExceptT.run (Task.await o : Task Op Ans E (Ans o))).Saw exec ss r ↔
      ∃ s, ss = [s] ∧ (exec o s).1 = r := by
  constructor
  · rintro ⟨s, rest, rfl, rfl, hr⟩
    exact ⟨s, rfl, hr⟩
  · rintro ⟨s, rfl, hr⟩
    exact ⟨s, [], rfl, rfl, hr⟩

/-- **Other operations**, each of which answers what the original one does on a part of the
store. -/
theorem saw_translate {exec' : (o : Op') → S' → Res' o × S'} {g : Op → Op'}
    {back : (o : Op) → Res' (g o) → Res o} {part : S' → S}
    (hback : ∀ o s, back o (exec' (g o) s).1 = (exec o (part s)).1) {p : Prog Op Res α}
    {ss : List S'} : (p.translate fun o => op (g o) fun r => ret (back o r)).Saw exec' ss a ↔
      p.Saw exec (ss.map part) a := by
  induction p generalizing ss with
  | ret c => simp [translate]
  | op o k ih =>
    cases ss with
    | nil => simp [translate]
    | cons s ss => simp [translate, ih, hback]

/-! ## What comes next -/

/-- After its operations have been performed in these states, the program performs `o'`. -/
def Awaits (exec : (o : Op) → S → Res o × S) : Prog Op Res α → List S → Op → Prop
  | .ret _, _, _ => False
  | .op o k, ss, o' => ss = [] ∧ o = o' ∨
      ∃ s rest, ss = s :: rest ∧ (k (exec o s).1).Awaits exec rest o'

variable {o' : Op}

@[simp] theorem not_awaits_ret {b : α} : ¬ (ret b : Prog Op Res α).Awaits exec ss o' := id

@[simp] theorem awaits_op_nil {o : Op} {k : Res o → Prog Op Res α} :
    (op o k).Awaits exec [] o' ↔ o = o' := by
  simp [Awaits]

@[simp] theorem awaits_op_cons {o : Op} {k : Res o → Prog Op Res α} {s : S} :
    (op o k).Awaits exec (s :: ss) o' ↔ (k (exec o s).1).Awaits exec ss o' := by
  simp [Awaits]

/-- The next operation of a sequence is one of either half. -/
theorem awaits_bind {p : Prog Op Res α} {f : α → Prog Op Res β} :
    (p.bind f).Awaits exec ss o' ↔ p.Awaits exec ss o' ∨
      ∃ pre post a, ss = pre ++ post ∧ p.Saw exec pre a ∧ (f a).Awaits exec post o' := by
  induction p generalizing ss with
  | ret c =>
    constructor
    · exact fun h => Or.inr ⟨[], ss, c, rfl, ⟨rfl, rfl⟩, h⟩
    · rintro (h | ⟨pre, post, a, rfl, ⟨rfl, rfl⟩, h⟩)
      · exact h.elim
      · exact h
  | op o k ih =>
    cases ss with
    | nil =>
      simp only [op_bind, awaits_op_nil]
      refine ⟨Or.inl, ?_⟩
      rintro (h | ⟨pre, post, a, hnil, ⟨s, rest, rfl, -⟩, -⟩)
      · exact h
      · cases hnil
    | cons s ss =>
      simp only [op_bind, awaits_op_cons, ih]
      refine or_congr_right ⟨?_, ?_⟩
      · rintro ⟨pre, post, a, rfl, hpre, hpost⟩
        exact ⟨s :: pre, post, a, rfl, saw_op_cons.2 hpre, hpost⟩
      · rintro ⟨_, post, a, heq, ⟨s', rest, rfl, hpre⟩, hpost⟩
        cases heq
        exact ⟨rest, post, a, rfl, hpre, hpost⟩

/-- The same with errors. -/
theorem awaits_exceptBind {p : ExceptT E (Prog Op Res) α} {f : α → ExceptT E (Prog Op Res) β} :
    (ExceptT.run (p >>= f)).Awaits exec ss o' ↔ (ExceptT.run p).Awaits exec ss o' ∨
      ∃ pre post a, ss = pre ++ post ∧ (ExceptT.run p).Saw exec pre (.ok a) ∧
        (ExceptT.run (f a)).Awaits exec post o' := by
  rw [ExceptT.run_bind, bind_def, awaits_bind]
  refine or_congr_right ⟨?_, ?_⟩
  · rintro ⟨pre, post, a | a, rfl, hpre, hpost⟩
    · exact hpost.elim
    · exact ⟨pre, post, a, rfl, hpre, hpost⟩
  · rintro ⟨pre, post, a, rfl, hpre, hpost⟩
    exact ⟨pre, post, .ok a, rfl, hpre, hpost⟩

/-- What a translated program performs is what some operation has been translated to. -/
theorem exists_of_awaits_translate {exec' : (o : Op') → S' → Res' o × S'} {g : Op → Op'}
    {back : (o : Op) → Res' (g o) → Res o} {p : Prog Op Res α} {ss : List S'} {o' : Op'}
    (h : (p.translate fun o => op (g o) fun r => ret (back o r)).Awaits exec' ss o') :
    ∃ o, g o = o' := by
  induction p generalizing ss with
  | ret c => exact h.elim
  | op o k ih =>
    cases ss with
    | nil => exact ⟨o, awaits_op_nil.1 h⟩
    | cons s ss => exact ih _ (awaits_op_cons.1 h)

/-- **Other operations**: what comes next is what has come next before, translated. -/
theorem awaits_translate {exec' : (o : Op') → S' → Res' o × S'} {g : Op → Op'}
    {back : (o : Op) → Res' (g o) → Res o} {part : S' → S} (hg : Function.Injective g)
    (hback : ∀ o s, back o (exec' (g o) s).1 = (exec o (part s)).1) {p : Prog Op Res α}
    {ss : List S'} : (p.translate fun o => op (g o) fun r => ret (back o r)).Awaits exec' ss (g o') ↔
      p.Awaits exec (ss.map part) o' := by
  induction p generalizing ss with
  | ret c => simp [translate]
  | op o k ih =>
    cases ss with
    | nil => simp [translate, hg.eq_iff]
    | cons s ss => simp [translate, ih, hback]

/-- What comes next is one of the operations that the program performs. -/
theorem Only.of_awaits {P : Op → Prop} {p : Prog Op Res α} (hp : p.Only P)
    (h : p.Awaits exec ss o') : P o' := by
  induction p generalizing ss with
  | ret c => exact h.elim
  | op o k ih =>
    cases ss with
    | nil => exact awaits_op_nil.1 h ▸ hp.1
    | cons s ss => exact ih _ (hp.2 _) (awaits_op_cons.1 h)

/-! ## What is left -/

/-- What is left of a program after its operations have been performed in these states, if it
performs that many. -/
def rest (exec : (o : Op) → S → Res o × S) : Prog Op Res α → List S → Option (Prog Op Res α)
  | p, [] => some p
  | .ret _, _ :: _ => none
  | .op o k, s :: ss => (k (exec o s).1).rest exec ss

@[simp] theorem rest_nil {p : Prog Op Res α} : p.rest exec [] = some p := by
  cases p <;> rfl

theorem rest_append {p q : Prog Op Res α} {post : List S} (h : p.rest exec ss = some q) :
    p.rest exec (ss ++ post) = q.rest exec post := by
  induction ss generalizing p with
  | nil =>
    rw [rest_nil] at h
    cases h
    rfl
  | cons s ss ih =>
    cases p with
    | ret b => simp [rest] at h
    | op o k => exact ih h

theorem saw_iff_rest {p : Prog Op Res α} :
    p.Saw exec ss a ↔ p.rest exec ss = some (ret a) := by
  induction ss generalizing p with
  | nil => cases p <;> simp [rest]
  | cons s ss ih => cases p <;> simp [rest, ih]

theorem awaits_iff_rest {p : Prog Op Res α} :
    p.Awaits exec ss o' ↔ ∃ k, p.rest exec ss = some (op o' k) := by
  induction ss generalizing p with
  | nil =>
    cases p with
    | ret b => simp [rest]
    | op o k =>
      rw [awaits_op_nil]
      constructor
      · rintro rfl
        exact ⟨k, rfl⟩
      · rintro ⟨k', hrest⟩
        cases hrest
        rfl
  | cons s ss ih => cases p <;> simp [rest, ih]

end Prog

namespace System

variable {ι S Op : Type} {Ans : Op → Type} {E α : Type} [DecidableEq ι]
  {exec : (o : Op) → S → Except E (Ans o) × S} {around : S → S → Prop}
  {ok : System ι S Op Ans E α → System.Label ι → Prop} {σ₀ σ : System ι S Op Ans E α}
  {steps : List (System ι S Op Ans E α × System.Label ι × System ι S Op Ans E α)} {i : ι}

/-- The states in which `i` has moved. -/
def seen (i : ι) (steps : List (System ι S Op Ans E α × System.Label ι × System ι S Op Ans E α)) :
    List S :=
  (steps.filter fun p => decide (p.2.1 = some i)).map fun p => p.1.shared

theorem seen_append
    (steps' : List (System ι S Op Ans E α × System.Label ι × System ι S Op Ans E α)) :
    seen i (steps ++ steps') = seen i steps ++ seen i steps' := by
  simp [seen]

/-- **Along a run**, what is left of a function is what the states that it has seen leave of it. -/
theorem rest_of_run (h : Run (Step exec around) ok σ₀ steps σ) :
    (σ₀.tasks i).rest exec (seen i steps) = some (σ.tasks i) := by
  induction h with
  | start => exact Prog.rest_nil
  | @next steps s s' l _ _ hstep ih =>
    rw [seen_append, Prog.rest_append ih]
    cases l with
    | none =>
      rw [hstep.of_none.2]
      simp [seen]
    | some j =>
      obtain ⟨o, k, hop, -, hnext, hothers⟩ := hstep.of_some
      by_cases hij : i = j
      · subst hij
        simp [seen, Prog.rest, hop, hnext]
      · have hne : j ≠ i := fun hc => hij hc.symm
        rw [hothers i hij]
        simp [seen, hne]

/-- **What it has returned** is what it returns in the states that it has seen. -/
theorem result?_iff_saw (h : Run (Step exec around) ok σ₀ steps σ) {r : Except E α} :
    σ.result? i = some r ↔ (σ₀.tasks i).Saw exec (seen i steps) r := by
  rw [Prog.saw_iff_rest, rest_of_run h, result?]
  cases σ.tasks i <;> simp [Prog.result?]

/-- **What it performs next** is what it performs after the states that it has seen. -/
theorem performs_iff_awaits (h : Run (Step exec around) ok σ₀ steps σ) {o : Op} :
    σ.Performs i o ↔ (σ₀.tasks i).Awaits exec (seen i steps) o := by
  rw [Prog.awaits_iff_rest, rest_of_run h, Performs]
  simp

/-- **A state that it has seen**: the step in which it has moved there, and what it has performed
then. -/
theorem performs_of_seen (h : Run (Step exec around) ok σ₀ steps σ) {pre post : List S} {s : S}
    {o : Op} (hseen : seen i steps = pre ++ s :: post)
    (hawaits : (σ₀.tasks i).Awaits exec pre o) : ∃ before p after, steps = before ++ p :: after ∧
      p.2.1 = some i ∧ p.1.shared = s ∧ p.1.Performs i o := by
  obtain ⟨moves, rest, hmoves, hpre, hrest⟩ := List.map_eq_append_iff.1 hseen
  obtain ⟨p, later, rfl, hs, -⟩ := List.map_eq_cons_iff.1 hrest
  obtain ⟨first, last, rfl, hfirst, hlast⟩ := List.filter_eq_append_iff.1 hmoves
  obtain ⟨before, after, rfl, hbefore, hp, -⟩ := List.filter_eq_cons_iff.1 hlast
  have hseen' : seen i (first ++ before) = pre := by
    have hnone : before.filter (fun p => decide (p.2.1 = some i)) = [] :=
      List.filter_eq_nil_iff.2 hbefore
    rw [seen, List.filter_append, hfirst, hnone, List.append_nil, hpre]
  obtain ⟨σ₁, hrun, hrun'⟩ :=
    (show Run (Step exec around) ok σ₀ ((first ++ before) ++ p :: after) σ by simpa using h).of_append
  obtain ⟨rfl, -⟩ := hrun'.of_cons
  refine ⟨first ++ before, p, after, by simp, of_decide_eq_true hp, hs, ?_⟩
  exact (performs_iff_awaits hrun).2 (hseen'.symm ▸ hawaits)

end System

end Concurrency
