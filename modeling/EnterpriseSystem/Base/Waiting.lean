import EnterpriseSystem.Base.ReadCommitted

/-!
# Calls in the middle of their work

What a call has written and returned, what it is about to do, and how it goes on
from there.  A statement whose locks another call holds waits until that call ends.

* `CallState.own`, `writes`, `asks` — the rows a call has written, and the rows its
  next statement writes and the locks it needs.
* `State.Waits` — one call waits for another; `Deadlocked` is a cycle of them.
* `CallState.advance` — a call that goes on for some statements;
  `reach_of_advance` — it may do so while nobody else holds a lock it takes, and
  commit when it has returned (`step_of_returned`).
* `cycle_of_two_sorts` — a cycle whose nodes are of two sorts, seen from the nodes
  of one of them.
-/

namespace Concurrency

section Machine

variable {ι D W K E α : Type} [DecidableEq ι] (apply : D → W → D)

/-- The locks the next statement of a call needs. -/
def CallState.asks (d : D) : CallState D W K E α → List K
  | .running own _ (.op o _) => o.locks (view apply d own)
  | _ => []

/-- The rows a call in progress has written. -/
def CallState.own : CallState D W K E α → List W
  | .running own _ _ => own
  | _ => []

/-- What a call in progress has returned. -/
def CallState.returned : CallState D W K E α → Option α
  | .running _ _ (.ret (.ok a)) => some a
  | _ => none

/-- The rows the next statement of a call writes. -/
def CallState.writes (d : D) : CallState D W K E α → List W
  | .running own _ (.op o _) => o.writes (view apply d own)
  | _ => []

/-- Call `i` waits for call `j`, which holds a lock its next statement needs. -/
def State.Waits (σ : State ι D W K E α) (i j : ι) : Prop :=
  j ≠ i ∧ ∃ l ∈ (σ.calls i).asks apply σ.committed, l ∈ (σ.calls j).held

/-- Some calls wait for each other in a circle. -/
def State.Deadlocked (σ : State ι D W K E α) : Prop :=
  ∃ i, Relation.TransGen (σ.Waits apply) i i

variable {apply}

omit [DecidableEq ι] in
/-- A call that waits is about to run a statement. -/
theorem State.Waits.running {σ : State ι D W K E α} {i j : ι} (h : σ.Waits apply i j) :
    ∃ own held o k, σ.calls i = .running own held (.op o k) ∧
      (σ.calls i).asks apply σ.committed = o.locks (view apply σ.committed own) := by
  obtain ⟨-, l, hl, -⟩ := h
  cases hi : σ.calls i with
  | committed a =>
    rw [hi] at hl
    cases hl
  | aborted e =>
    rw [hi] at hl
    cases hl
  | running own held code =>
    cases code with
    | ret r =>
      rw [hi] at hl
      cases hl
    | op o k => exact ⟨own, held, o, k, rfl, rfl⟩

/-! ## A call that goes on for a while -/

/-- A call after its next statement, on the committed rows `d`. -/
def CallState.next (apply : D → W → D) (d : D) : CallState D W K E α → CallState D W K E α
  | .running own held (.op o k) => .running (own ++ o.writes (view apply d own))
      (held ++ o.locks (view apply d own)) (k (o.answer (view apply d own)))
  | c => c

/-- A call after some more statements. -/
def CallState.advance (apply : D → W → D) (d : D) : ℕ → CallState D W K E α → CallState D W K E α
  | 0, c => c
  | n + 1, c => advance apply d n (c.next apply d)

theorem CallState.own_next (d : D) (c : CallState D W K E α) :
    (c.next apply d).own = c.own ++ c.writes apply d := by
  cases c with
  | committed a => rfl
  | aborted e => rfl
  | running own held code =>
    cases code with
    | ret r => exact (List.append_nil own).symm
    | op o k => rfl

/-- The locks a call holds it keeps. -/
theorem CallState.held_next {d : D} {c : CallState D W K E α} {l : K} (h : l ∈ c.held) :
    l ∈ (c.next apply d).held := by
  cases c with
  | committed a => exact h
  | aborted e => exact h
  | running own held code =>
    cases code with
    | ret r => exact h
    | op o k => exact List.mem_append_left _ h

theorem CallState.held_advance {d : D} {n : ℕ} {c : CallState D W K E α} {l : K}
    (h : l ∈ c.held) : l ∈ (c.advance apply d n).held := by
  induction n generalizing c with
  | zero => exact h
  | succ n ih => exact ih (held_next h)

theorem State.set_calls (σ : State ι D W K E α) (i : ι) : σ.set i (σ.calls i) = σ := by
  simp [State.set]

/-- A call may run its next statement while nobody else holds a lock it takes. -/
theorem reach_of_next {ok : State ι D W K E α → ι → Prop} {σ : State ι D W K E α} {i : ι}
    (hok : ∀ σ, ok σ i) (hfree : σ.Free i ((σ.calls i).next apply σ.committed).held) :
    Relational.Reach (Step apply) ok σ (σ.set i ((σ.calls i).next apply σ.committed)) := by
  have hstay : (σ.calls i).next apply σ.committed = σ.calls i →
      Relational.Reach (Step apply) ok σ (σ.set i ((σ.calls i).next apply σ.committed)) := by
    intro h
    rw [h, State.set_calls]
    exact .start
  cases hi : σ.calls i with
  | committed a => exact hi ▸ hstay (by rw [hi]; rfl)
  | aborted e => exact hi ▸ hstay (by rw [hi]; rfl)
  | running own held code =>
    cases code with
    | ret r => exact hi ▸ hstay (by rw [hi]; rfl)
    | op o k =>
      rw [hi] at hfree
      exact .next .start (hok σ) (.exec hi fun j hj l hl =>
        hfree j hj l (List.mem_append_right _ hl))

/-- A statement that writes something is a step of its own. -/
theorem step_of_writes {σ : State ι D W K E α} {i : ι}
    (hwrites : (σ.calls i).writes apply σ.committed ≠ [])
    (hfree : σ.Free i ((σ.calls i).next apply σ.committed).held) :
    Step apply σ i (σ.set i ((σ.calls i).next apply σ.committed)) := by
  cases hi : σ.calls i with
  | committed a => exact absurd (by rw [hi]; rfl) hwrites
  | aborted e => exact absurd (by rw [hi]; rfl) hwrites
  | running own held code =>
    cases code with
    | ret r => exact absurd (by rw [hi]; rfl) hwrites
    | op o k =>
      rw [hi] at hfree
      exact .exec hi fun j hj l hl => hfree j hj l (List.mem_append_right _ hl)

/-- **A call may go on** while nobody else holds a lock it takes. -/
theorem reach_of_advance {ok : State ι D W K E α → ι → Prop} {σ : State ι D W K E α} {i : ι}
    {n : ℕ} (hok : ∀ σ, ok σ i)
    (hfree : σ.Free i ((σ.calls i).advance apply σ.committed n).held) :
    Relational.Reach (Step apply) ok σ (σ.set i ((σ.calls i).advance apply σ.committed n)) := by
  induction n generalizing σ with
  | zero =>
    rw [CallState.advance, State.set_calls]
    exact .start
  | succ n ih =>
    rw [CallState.advance] at hfree ⊢
    have hfirst := reach_of_next hok fun j hj l hl => hfree j hj l (CallState.held_advance hl)
    have hrest := @ih (σ.set i ((σ.calls i).next apply σ.committed)) ?_
    · rw [State.set_calls_self, State.set_committed, State.set_set] at hrest
      exact hfirst.trans hrest
    · rw [State.set_calls_self, State.set_committed]
      intro j hj l hl
      rw [State.set_calls_of_ne σ _ hj]
      exact hfree j hj l hl

/-- A call that has returned may commit. -/
theorem step_of_returned {σ : State ι D W K E α} {i : ι} {a : α}
    (h : (σ.calls i).returned = some a) :
    Step apply σ i { (σ.set i (.committed a)) with
      committed := view apply σ.committed (σ.calls i).own } := by
  cases hi : σ.calls i with
  | committed a' =>
    rw [hi] at h
    cases h
  | aborted e =>
    rw [hi] at h
    cases h
  | running own held code =>
    rw [hi] at h
    cases code with
    | op o k => cases h
    | ret r =>
      cases r with
      | error e => cases h
      | ok a' =>
        cases h
        exact .commit hi

end Machine

/-! ## Cycles -/

section Cycles

open Relation

variable {ι : Type} {r : ι → ι → Prop}

/-- Every step of a cycle joins nodes that are on a cycle. -/
theorem cycle_mem {i : ι} (h : TransGen r i i) :
    TransGen (fun a b => r a b ∧ TransGen r a a ∧ TransGen r b b) i i := by
  have key : ∀ {j}, TransGen r i j → TransGen r j i →
      TransGen (fun a b => r a b ∧ TransGen r a a ∧ TransGen r b b) i j := by
    intro j hij hji
    induction hij with
    | single hstep => exact .single ⟨hstep, h, hji.tail hstep⟩
    | tail hij hstep ih =>
      have hback := TransGen.head hstep hji
      exact (ih hback).tail ⟨hstep, hback.trans hij, hji.trans (hij.tail hstep)⟩
  exact key h h

/-- Somebody on a cycle comes before each of its nodes. -/
theorem exists_pred_of_cycle {i : ι} (h : TransGen r i i) : ∃ k, r k i ∧ TransGen r k k := by
  cases h with
  | single hstep => exact ⟨i, hstep, .single hstep⟩
  | tail hij hstep => exact ⟨_, hstep, TransGen.head hstep hij⟩

/-- **A cycle of two sorts.**  When a step from a node outside `P` leads into `P` by
`k`, and a step from a node in `P` is an `f`, then the nodes in `P` are on a cycle of
`f` with at most one `k` after it. -/
theorem cycle_of_two_sorts {P : ι → Prop} {f k : ι → ι → Prop}
    (hin : ∀ a b, r a b → P a → f a b) (hout : ∀ a b, r a b → ¬ P a → P b ∧ k a b) {i : ι}
    (h : TransGen r i i) :
    ∃ d, TransGen (fun a b => ∃ s, f a s ∧ (s = b ∨ k s b)) d d := by
  have key : ∀ {d}, P d → ∀ {j}, TransGen r d j →
      (P j → TransGen (fun a b => ∃ s, f a s ∧ (s = b ∨ k s b)) d j) ∧
      (¬ P j → ∃ e, (e = d ∨ TransGen (fun a b => ∃ s, f a s ∧ (s = b ∨ k s b)) d e) ∧ f e j) := by
    intro d hd j hdj
    induction hdj with
    | single hstep =>
      have hf := hin _ _ hstep hd
      exact ⟨fun _ => .single ⟨_, hf, Or.inl rfl⟩, fun _ => ⟨d, Or.inl rfl, hf⟩⟩
    | @tail b c _ hstep ih =>
      by_cases hb : P b
      · have hf := hin _ _ hstep hb
        exact ⟨fun _ => (ih.1 hb).tail ⟨_, hf, Or.inl rfl⟩, fun _ => ⟨b, Or.inr (ih.1 hb), hf⟩⟩
      · obtain ⟨hc, hk⟩ := hout _ _ hstep hb
        refine ⟨fun _ => ?_, fun hnot => absurd hc hnot⟩
        obtain ⟨e, rfl | he, hf⟩ := ih.2 hb
        · exact .single ⟨b, hf, Or.inr hk⟩
        · exact he.tail ⟨b, hf, Or.inr hk⟩
  by_cases hi : P i
  · exact ⟨i, (key hi h).1 hi⟩
  · -- the next node is in `P`
    obtain ⟨b, hstep, hcycle⟩ : ∃ b, r i b ∧ TransGen r b b := by
      obtain ⟨b, hstep, hrest⟩ := TransGen.head'_iff.1 h
      rcases Relation.reflTransGen_iff_eq_or_transGen.1 hrest with rfl | hbi
      · exact ⟨_, hstep, .single hstep⟩
      · exact ⟨b, hstep, hbi.tail hstep⟩
    have hb := (hout _ _ hstep hi).1
    exact ⟨b, (key hb hcycle).1 hb⟩

end Cycles

end Concurrency
