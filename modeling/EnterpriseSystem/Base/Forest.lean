import Mathlib

/-!
# Forests

Trees with labels, and the walks that go through them with what they have met on the way
down.

* `RoseTree`, `Visit` — a tree, and one of its nodes with its address and the labels above it.
* `visits` — the nodes of a forest, each in front of those below it.
* `walk` — a report of every node, with a state that is passed down.
* `walk_eq` — a walk reports the visits, in the state that the labels above lead to.
* `nodup_address` — addresses are different.
* `mem_visits_root`, `eq_root_of_above_nil` — the nodes with nothing above them are the roots,
  each at the address of its number.
-/

namespace Forests

variable {A S R : Type}

/-- A tree. -/
inductive RoseTree (A : Type) where
  | node (label : A) (children : List (RoseTree A))

/-- The label of the root. -/
def RoseTree.label : RoseTree A → A
  | .node a _ => a

/-- A node: the numbers of the branches that lead to it, the labels above, from the root
on, and its own. -/
structure Visit (A : Type) where
  address : List ℕ
  above : List A
  label : A

/-! ## Visits -/

mutual

/-- The nodes of a tree that stands at an address. -/
def treeVisits (address : List ℕ) (above : List A) : RoseTree A → List (Visit A)
  | .node a children => ⟨address, above, a⟩ :: visitsFrom address (above ++ [a]) 0 children

/-- The nodes of the trees from number `i` on. -/
def visitsFrom (address : List ℕ) (above : List A) (i : ℕ) : List (RoseTree A) → List (Visit A)
  | [] => []
  | t :: ts => treeVisits (address ++ [i]) above t ++ visitsFrom address above (i + 1) ts

end

/-- The nodes of a forest. -/
def visits (forest : List (RoseTree A)) : List (Visit A) := visitsFrom [] [] 0 forest

/-! ## Walks -/

section

variable (own : S → A → List R) (next : S → A → S)

mutual

/-- The reports of a tree: of its root, and of what is below in the next state. -/
def walkTree (s : S) : RoseTree A → List R
  | .node a children => own s a ++ walk (next s a) children

/-- The reports of a forest. -/
def walk (s : S) : List (RoseTree A) → List R
  | [] => []
  | t :: ts => walkTree s t ++ walk s ts

end

mutual

theorem walkTree_eq (s : S) (address : List ℕ) (above : List A) : ∀ t : RoseTree A,
    walkTree own next (above.foldl next s) t =
      (treeVisits address above t).flatMap fun v => own (v.above.foldl next s) v.label
  | .node a children => by
    have hbelow := walkFrom_eq s address (above ++ [a]) 0 children
    rw [List.foldl_append] at hbelow
    rw [walkTree, treeVisits, List.flatMap_cons, ← hbelow]
    rfl

theorem walkFrom_eq (s : S) (address : List ℕ) (above : List A) (i : ℕ) : ∀ ts : List (RoseTree A),
    walk own next (above.foldl next s) ts =
      (visitsFrom address above i ts).flatMap fun v => own (v.above.foldl next s) v.label
  | [] => rfl
  | t :: ts => by
    rw [walk, visitsFrom, List.flatMap_append, walkTree_eq s (address ++ [i]) above t,
      walkFrom_eq s address above (i + 1) ts]

end

/-- **A walk** reports the visits, in the state that the labels above lead to. -/
theorem walk_eq (s : S) (forest : List (RoseTree A)) :
    walk own next s forest =
      (visits forest).flatMap fun v => own (v.above.foldl next s) v.label :=
  walkFrom_eq own next s [] [] 0 forest

end

/-! ## Addresses -/

mutual

theorem mem_treeVisits {address : List ℕ} {above : List A} {v : Visit A} : ∀ {t : RoseTree A},
    v ∈ treeVisits address above t →
      v = ⟨address, above, t.label⟩ ∨
        ∃ i rest, v.address = address ++ i :: rest ∧ above ++ [t.label] <+: v.above
  | .node a children, h => by
    rcases List.mem_cons.1 h with rfl | h
    · exact .inl rfl
    · obtain ⟨i, rest, -, haddress, habove⟩ := mem_visitsFrom h
      exact .inr ⟨i, rest, haddress, habove⟩

theorem mem_visitsFrom {address : List ℕ} {above : List A} {i : ℕ} {v : Visit A} :
    ∀ {ts : List (RoseTree A)}, v ∈ visitsFrom address above i ts →
      ∃ j rest, i ≤ j ∧ v.address = address ++ j :: rest ∧ above <+: v.above
  | t :: ts, h => by
    rcases List.mem_append.1 h with h | h
    · rcases mem_treeVisits h with rfl | ⟨j, rest, haddress, habove⟩
      · exact ⟨i, [], le_rfl, rfl, List.prefix_rfl⟩
      · refine ⟨i, j :: rest, le_rfl, ?_, (List.prefix_append _ _).trans habove⟩
        rw [haddress, List.append_assoc, List.singleton_append]
    · obtain ⟨j, rest, hj, haddress, habove⟩ := mem_visitsFrom h
      exact ⟨j, rest, by omega, haddress, habove⟩

end

mutual

theorem nodup_treeVisits (address : List ℕ) (above : List A) : ∀ t : RoseTree A,
    ((treeVisits address above t).map Visit.address).Nodup
  | .node a children => by
    refine List.nodup_cons.2 ⟨fun h => ?_, nodup_visitsFrom address (above ++ [a]) 0 children⟩
    obtain ⟨v, hv, haddress⟩ := List.mem_map.1 h
    obtain ⟨j, rest, -, hbelow, -⟩ := mem_visitsFrom hv
    simp [haddress] at hbelow

theorem nodup_visitsFrom (address : List ℕ) (above : List A) (i : ℕ) : ∀ ts : List (RoseTree A),
    ((visitsFrom address above i ts).map Visit.address).Nodup
  | [] => List.nodup_nil
  | t :: ts => by
    rw [visitsFrom, List.map_append]
    refine (nodup_treeVisits _ above t).append (nodup_visitsFrom address above (i + 1) ts) ?_
    intro a h h'
    obtain ⟨v, hv, rfl⟩ := List.mem_map.1 h
    obtain ⟨w, hw, hsame⟩ := List.mem_map.1 h'
    obtain ⟨j, rest, hj, haddress, -⟩ := mem_visitsFrom hw
    -- the first number below the address is `i` in the one tree, and larger in the others
    rcases mem_treeVisits hv with rfl | ⟨k, rest', haddress', -⟩
    · simp [haddress] at hsame
      omega
    · simp [haddress, haddress'] at hsame
      omega

end

/-- **Addresses** are different. -/
theorem nodup_address (forest : List (RoseTree A)) : ((visits forest).map Visit.address).Nodup :=
  nodup_visitsFrom [] [] 0 forest

theorem mem_visitsFrom_root {address : List ℕ} {above : List A} {i : ℕ} {ts : List (RoseTree A)}
    {j : ℕ} {t : RoseTree A} (h : ts[j]? = some t) :
    ⟨address ++ [i + j], above, t.label⟩ ∈ visitsFrom address above i ts := by
  induction ts generalizing i j with
  | nil => simp at h
  | cons u ts ih =>
    rw [visitsFrom, List.mem_append]
    cases j with
    | zero =>
      obtain rfl : u = t := by simpa using h
      cases u with
      | node a children => exact .inl List.mem_cons_self
    | succ j =>
      refine .inr ?_
      have hrest := ih (i := i + 1) (j := j) (by simpa using h)
      rwa [show i + 1 + j = i + (j + 1) by omega] at hrest

/-- **A root** is visited, at the address of its number. -/
theorem mem_visits_root {forest : List (RoseTree A)} {i : ℕ} {t : RoseTree A} (h : forest[i]? = some t) :
    ⟨[i], [], t.label⟩ ∈ visits forest := by
  have hroot : (⟨[] ++ [0 + i], [], t.label⟩ : Visit A) ∈ visits forest := mem_visitsFrom_root h
  simpa using hroot

theorem eq_root_of_above_eq {address : List ℕ} {above : List A} {i : ℕ} {ts : List (RoseTree A)}
    {v : Visit A} (h : v ∈ visitsFrom address above i ts) (habove : v.above = above) :
    ∃ j t, ts[j]? = some t ∧ v = ⟨address ++ [i + j], above, t.label⟩ := by
  induction ts generalizing i with
  | nil => simp [visitsFrom] at h
  | cons t ts ih =>
    rcases List.mem_append.1 h with h | h
    · rcases mem_treeVisits h with rfl | ⟨-, -, -, hbelow⟩
      · exact ⟨0, t, rfl, rfl⟩
      · have hlength := hbelow.length_le
        rw [habove, List.length_append, List.length_singleton] at hlength
        omega
    · obtain ⟨j, t', hj, rfl⟩ := ih h
      exact ⟨j + 1, t', by simpa using hj, by rw [show i + 1 + j = i + (j + 1) by omega]⟩

/-- A node with nothing above it is a root. -/
theorem eq_root_of_above_nil {forest : List (RoseTree A)} {v : Visit A} (h : v ∈ visits forest)
    (habove : v.above = []) : ∃ i t, forest[i]? = some t ∧ v = ⟨[i], [], t.label⟩ := by
  obtain ⟨i, t, hi, rfl⟩ := eq_root_of_above_eq h habove
  exact ⟨i, t, hi, by simp⟩

end Forests
