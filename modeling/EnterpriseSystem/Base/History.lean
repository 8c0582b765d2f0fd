import Mathlib

/-!
# Histories of changes

A value that changes, and the record of its changes, each with the value before
and the value after.

* `Change`, `replay` — one entry of the record; the value the entries lead to.
* `Leads` — a record that is complete: each entry takes up where the one before
  it left, changes something, and the last one ends at the value; `leads_concat`
  splits off the last one.
* `Leads.tell`, `Leads.hide` — an entry is added, or left out; `Astray` is what a
  record is after an entry has been left out, whatever is recorded later.
-/

namespace History

variable {σ : Type*}

/-- An entry of the record. -/
structure Change (σ : Type*) where
  old : σ
  new : σ
  deriving DecidableEq

/-- The value after the entries. -/
def replay (s₀ : σ) (changes : List (Change σ)) : σ := changes.foldl (fun _ c => c.new) s₀

@[simp] theorem replay_nil (s₀ : σ) : replay s₀ [] = s₀ := rfl

@[simp] theorem replay_concat (s₀ : σ) (changes : List (Change σ)) (c : Change σ) :
    replay s₀ (changes ++ [c]) = c.new := by
  simp [replay]

/-- The record leads from `s₀` to `s`. -/
structure Leads (s₀ : σ) (changes : List (Change σ)) (s : σ) : Prop where
  ends : replay s₀ changes = s
  takesUp : ∀ before c after, changes = before ++ c :: after → c.old = replay s₀ before
  moves : ∀ c ∈ changes, c.old ≠ c.new

theorem Leads.nil (s₀ : σ) : Leads s₀ [] s₀ where
  ends := rfl
  takesUp _ _ _ h := by simp at h
  moves := by simp

/-- The last entry of a record. -/
theorem leads_concat {s₀ s : σ} {changes : List (Change σ)} {c : Change σ} :
    Leads s₀ (changes ++ [c]) s ↔ Leads s₀ changes c.old ∧ c.old ≠ c.new ∧ c.new = s := by
  constructor
  · intro h
    have hold : c.old = replay s₀ changes := h.takesUp changes c [] rfl
    refine ⟨⟨hold.symm, fun before d after heq => ?_, fun d hd => ?_⟩,
      h.moves c (List.mem_append_right _ (List.mem_singleton_self c)),
      by rw [← h.ends, replay_concat]⟩
    · exact h.takesUp before d (after ++ [c]) (by rw [heq, List.append_assoc, List.cons_append])
    · exact h.moves d (List.mem_append_left _ hd)
  · rintro ⟨h, hmoves, rfl⟩
    refine ⟨replay_concat s₀ changes c, fun before d after heq => ?_, fun d hd => ?_⟩
    · rcases List.eq_nil_or_concat after with rfl | ⟨after, last, rfl⟩
      · obtain ⟨rfl, hlast⟩ := List.append_inj' heq rfl
        rw [← (List.cons.inj hlast).1]
        exact h.ends.symm
      · rw [List.concat_eq_append, ← List.cons_append, ← List.append_assoc] at heq
        exact h.takesUp before d after (List.append_inj' heq rfl).1
    · rcases List.mem_append.1 hd with hd | hd
      · exact h.moves d hd
      · rw [List.mem_singleton.1 hd]
        exact hmoves

/-- **An entry is added** for a change from the value the record leads to. -/
theorem Leads.tell {s₀ s s' : σ} {changes : List (Change σ)} (h : Leads s₀ changes s)
    (hmoves : s ≠ s') : Leads s₀ (changes ++ [⟨s, s'⟩]) s' := leads_concat.2 ⟨h, hmoves, rfl⟩

/-- A record that went wrong at `s`: it leads elsewhere while the value is `s`, or
it does not lead anywhere. -/
def Astray (sink s₀ : σ) (changes : List (Change σ)) (s : σ) : Prop :=
  (s = sink ∧ ∀ x, Leads s₀ changes x → x ≠ sink) ∨ ∀ x, ¬ Leads s₀ changes x

variable {sink s₀ s s' : σ} {changes : List (Change σ)}

theorem Astray.not_leads (h : Astray sink s₀ changes s) : ¬ Leads s₀ changes s := by
  intro hleads
  rcases h with ⟨rfl, helse⟩ | hnone
  · exact helse _ hleads rfl
  · exact hnone _ hleads

/-- **An entry is left out** for a change to `sink`. -/
theorem Leads.hide (h : Leads s₀ changes s) (hmoves : s ≠ sink) : Astray sink s₀ changes sink := by
  refine Or.inl ⟨rfl, fun x hx => ?_⟩
  rw [← hx.ends, h.ends]
  exact hmoves

/-- Nothing recorded later mends the record. -/
theorem Astray.tell (h : Astray sink s₀ changes s) : Astray sink s₀ (changes ++ [⟨s, s'⟩]) s' :=
  Or.inr fun _ hx => h.not_leads (leads_concat.1 hx).1

/-- And leaving out another change to `sink` does not either. -/
theorem Astray.hide (h : Astray sink s₀ changes s) : Astray sink s₀ changes sink := by
  rcases h with ⟨-, helse⟩ | hnone
  · exact Or.inl ⟨rfl, helse⟩
  · exact Or.inr hnone

end History
