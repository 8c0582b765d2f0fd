import Mathlib

/-!
# Hash chains

A log whose rows carry a hash of their own and the hash of a predecessor.  What
one wants of it is a single chain: one row without a predecessor, every other
row after its predecessor, and no row the predecessor of two.

* `IsChain` — that property.
* `Linked` — how it comes about: every row names the row written just before it;
  `linked_concat_iff` says what a new row owes.
* `Linked.isChain` — when a hash determines the predecessor it was taken with, a
  linked log is a chain.
-/

namespace HashChain

variable {α H : Type} (hash : α → H) (prev : α → Option H)

/-- The rows form one chain, in the order in which they were written. -/
structure IsChain (rows : List α) : Prop where
  /-- Exactly one row has no predecessor, when there are rows. -/
  root : rows ≠ [] → ∃ r ∈ rows, prev r = none ∧ ∀ r' ∈ rows, prev r' = none → r' = r
  /-- The predecessor of every other row was written before it. -/
  linked : ∀ before r after, rows = before ++ r :: after → ∀ h, prev r = some h →
    ∃ r' ∈ before, hash r' = h
  /-- No two rows have the same predecessor. -/
  distinct : (rows.map prev).Nodup

/-- The hash a new row has to name. -/
def lastHash (rows : List α) : Option H := rows.getLast?.map hash

/-- Every row names the one written just before it. -/
def Linked (rows : List α) : Prop :=
  rows.map prev = (none :: rows.map fun r => some (hash r)).dropLast

variable {hash prev} {rows : List α}

theorem linked_nil : Linked hash prev [] := rfl

theorem getLast_hashes (rows : List α) :
    (none :: rows.map fun r => some (hash r)).getLast (by simp) = lastHash hash rows := by
  cases rows using List.reverseRecOn with
  | nil => rfl
  | append_singleton rows r => simp [lastHash]

/-- **A new row keeps a log linked** when it names the last one, and only then. -/
theorem linked_concat_iff {r : α} :
    Linked hash prev (rows ++ [r]) ↔ Linked hash prev rows ∧ prev r = lastHash hash rows := by
  have hne : none :: (rows.map fun r => some (hash r)) ≠ [] := by simp
  have hconcat : Linked hash prev (rows ++ [r]) ↔
      rows.map prev ++ [prev r] = none :: rows.map fun r => some (hash r) := by
    rw [Linked, List.map_append, List.map_append, List.map_singleton, List.map_singleton,
      ← List.cons_append, List.dropLast_concat]
  rw [hconcat, Linked, ← getLast_hashes]
  constructor
  · intro h
    have hinit := congrArg List.dropLast h
    rw [List.dropLast_concat] at hinit
    exact ⟨hinit, by simp only [← h, List.getLast_append_singleton]⟩
  · rintro ⟨hinit, hlast⟩
    rw [hinit, hlast, List.dropLast_concat_getLast]

/-- A row of a linked log has no predecessor, or one in the log. -/
theorem Linked.prev_cases (h : Linked hash prev rows) {r : α} (hr : r ∈ rows) :
    prev r = none ∨ ∃ r' ∈ rows, prev r = some (hash r') := by
  have hmem : prev r ∈ rows.map prev := List.mem_map_of_mem hr
  rw [h] at hmem
  rcases List.mem_cons.1 (List.mem_of_mem_dropLast hmem) with hnone | hsome
  · exact Or.inl hnone
  · obtain ⟨r', hr', heq⟩ := List.mem_map.1 hsome
    exact Or.inr ⟨r', hr', heq.symm⟩

/-- The predecessors in a linked log that has been extended. -/
theorem Linked.map_prev_concat {r : α} (h : Linked hash prev (rows ++ [r])) :
    (rows ++ [r]).map prev = none :: rows.map fun r => some (hash r) := by
  rw [h, List.map_append, List.map_singleton, ← List.cons_append, List.dropLast_concat]

/-- **A linked log is a chain** when a hash determines the predecessor it was
taken with. -/
theorem Linked.isChain (h : Linked hash prev rows)
    (hbinds : ∀ r ∈ rows, ∀ r' ∈ rows, hash r = hash r' → prev r = prev r') :
    IsChain hash prev rows ∧ (rows.map hash).Nodup := by
  induction rows using List.reverseRecOn with
  | nil =>
    refine ⟨⟨fun hne => absurd rfl hne, fun before r after hrows => ?_, .nil⟩, .nil⟩
    exact absurd hrows.symm (by simp)
  | append_singleton rows r ih =>
    obtain ⟨hrows, hlast⟩ := linked_concat_iff.1 h
    obtain ⟨hchain, hnodup⟩ := ih hrows fun a ha b hb =>
      hbinds a (List.mem_append_left _ ha) b (List.mem_append_left _ hb)
    have hdistinct : ((rows ++ [r]).map prev).Nodup := by
      have hsome := hnodup.map (Option.some_injective H)
      rw [List.map_map] at hsome
      rw [h.map_prev_concat, List.nodup_cons]
      exact ⟨by simp, hsome⟩
    refine ⟨⟨fun _ => ?_, ?_, hdistinct⟩, ?_⟩
    · cases rows using List.reverseRecOn with
      | nil => exact ⟨r, by simp, hlast, by simp⟩
      | append_singleton rows r₀ =>
        obtain ⟨root, hmem, hnone, hunique⟩ := hchain.root (by simp)
        refine ⟨root, List.mem_append_left _ hmem, hnone, fun r' hr' hnone' => ?_⟩
        rcases List.mem_append.1 hr' with hr' | hr'
        · exact hunique r' hr' hnone'
        · cases List.mem_singleton.1 hr'
          simp [hlast, lastHash] at hnone'
    · intro before r' after hsplit x hx
      cases after using List.reverseRecOn with
      | nil =>
        obtain ⟨rfl, hr⟩ := List.append_inj' hsplit rfl
        cases hr
        rw [hlast, lastHash, Option.map_eq_some_iff] at hx
        obtain ⟨last, hmem, rfl⟩ := hx
        exact ⟨last, List.mem_of_getLast? hmem, rfl⟩
      | append_singleton after r₁ =>
        rw [← List.cons_append, ← List.append_assoc] at hsplit
        exact hchain.linked before r' after (List.append_inj' hsplit rfl).1 x hx
    · rw [List.map_append, List.nodup_append]
      refine ⟨hnodup, by simp, ?_⟩
      rintro x hx y hy rfl
      obtain ⟨a, ha, hash_a⟩ := List.mem_map.1 hx
      rw [List.map_singleton, List.mem_singleton] at hy
      -- the two rows would have one predecessor
      have hprev := hbinds a (List.mem_append_left _ ha) r (by simp) (hash_a.trans hy)
      rw [List.map_append, List.map_singleton, List.nodup_append] at hdistinct
      exact hdistinct.2.2 _ (List.mem_map_of_mem ha) _ (List.mem_singleton_self _) hprev

end HashChain
